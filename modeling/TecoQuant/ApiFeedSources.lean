import TecoQuant.ApiFeedTicks
import TecoQuant.BrokersFeedFormat
import TecoQuant.BrokersFeedSupervisor

/-! Where the fields of a cached tick come from. The cache files a tick under its bare security id, the feed
names an instrument by segment and id; a tick describes one instrument in the runs that keep the two together. -/

namespace TecoQuant.Api

open Domain Strategy Signal Brokers

/-! ### Histories -/

/-- The instruments of a publication, as the feed names them. -/
def PublishedSnapshot.feedKeys (p : PublishedSnapshot) : List (Int × String) :=
  let contract := p.snapshot.contract
  let instruments := contract.underlying :: (contract.futures.map (·.instrument)).toList ++
    contract.optionContracts.map (·.instrument)
  instruments.filterMap fun instrument =>
    (DHAN_EXCHANGE_SEGMENT_CODES.lookup instrument.segment).map (·, instrument.securityId)

/-- A store with the instruments published so far and the packets accepted so far, in order. -/
structure FeedHistory where
  store : MarketReadModelStore
  published : List (Int × String)
  accepted : List CheckedPacket

/-- The packet a call brings, once it is past the checks before the lock. -/
def Call.checked : Call → Option CheckedPacket
  | .publish .. => none
  | .publishFeedTick packet receivedAt clock => (checkPacket packet receivedAt clock).toOption.join

def FeedHistory.turn (tables : CharTables) (h : FeedHistory) (call : Call) : FeedHistory :=
  let (returned, store) := perform tables h.store call
  { store
    published := h.published ++ store.latest.flatMap fun item => item.2.feedKeys
    accepted := h.accepted ++ if returned = .ok true then call.checked.toList else [] }

def FeedHistory.run (tables : CharTables) (maximum : Nat) (calls : List Call) : FeedHistory :=
  calls.foldl (·.turn tables) ⟨.new maximum, [], []⟩

theorem FeedHistory.turn_accepted (tables : CharTables) (h : FeedHistory) (call : Call) :
    (h.turn tables call).accepted =
      h.accepted ++ if (perform tables h.store call).1 = .ok true then call.checked.toList else [] := rfl

theorem FeedHistory.run_append (tables : CharTables) (maximum : Nat) (calls : List Call) (call : Call) :
    FeedHistory.run tables maximum (calls ++ [call]) = (FeedHistory.run tables maximum calls).turn tables call := by
  rw [FeedHistory.run, List.foldl_append]
  rfl

theorem FeedHistory.run_store (tables : CharTables) (maximum : Nat) (calls : List Call) :
    (FeedHistory.run tables maximum calls).store = runCalls tables (.new maximum) calls := by
  induction calls using List.reverseRecOn with
  | nil => rfl
  | append_singleton calls call ih =>
      rw [FeedHistory.run_append, runCalls, List.foldl_append]
      show (perform tables (FeedHistory.run tables maximum calls).store call).2 = _
      rw [ih]
      rfl

/-! ### Sources -/

def CheckedPacket.feedKey (checked : CheckedPacket) : Int × String :=
  (checked.packet.exchangeSegmentCode, checked.packet.securityId)

/-- The float fields of the primary packets. -/
def priceFields : List String :=
  (([2, 4, 8].flatMap layout).filter fun field => field.2 = .f).map Prod.fst

/-- The fields, the depth and the time of a tick come from one published instrument: the price fields and the
time from its latest primary packet. -/
structure DescribesOne (h : FeedHistory) (key : Int × String) (observedAt : Datetime)
    (fields : List (String × FieldValue)) (depth : List DhanDepthLevel) : Prop where
  published : key ∈ h.published
  sources : ∀ field ∈ fields, ∃ checked ∈ h.accepted, checked.feedKey = key ∧ field ∈ checked.packet.fields
  levels : depth = [] ∨ ∃ checked ∈ h.accepted, checked.feedKey = key ∧ checked.depth = depth
  primary : ∃ (before : List CheckedPacket) (checked : CheckedPacket) (after : List CheckedPacket),
    h.accepted = before ++ checked :: after ∧ checked.feedKey = key ∧ checked.primaryPrice = true ∧
    (∀ later ∈ after, later.feedKey = key → later.primaryPrice = false) ∧ checked.checkTime = observedAt ∧
    ∀ field ∈ fields, field.1 ∈ priceFields → field ∈ checked.packet.fields

/-- A packet that keeps its tick with one published instrument: the instrument of the cached tick, unless it
brings the price anew with everything the tick holds; a primary packet brings every price field the tick holds,
another none. -/
structure Coherent (h : FeedHistory) (checked : CheckedPacket) : Prop where
  published : checked.feedKey ∈ h.published
  continues : ∀ tick ∈ h.store.ticks.lookup checked.packet.securityId,
    tick.exchangeSegmentCode = checked.packet.exchangeSegmentCode ∨ checked.primaryPrice = true ∧
      (∀ field ∈ tick.fields, ∃ update ∈ checked.packet.fields, field.1 = update.1) ∧
      (tick.depth = [] ∨ checked.depth ≠ [])
  renewed : checked.primaryPrice = true → ∀ tick ∈ h.store.ticks.lookup checked.packet.securityId,
    ∀ field ∈ tick.fields, field.1 ∈ priceFields → ∃ update ∈ checked.packet.fields, field.1 = update.1
  kept : checked.primaryPrice = false → ∀ update ∈ checked.packet.fields, update.1 ∉ priceFields

/-- Every packet the lock lets in is coherent. -/
def CoherentRun (tables : CharTables) (maximum : Nat) (calls : List Call) : Prop :=
  ∀ before call rest, calls = before ++ call :: rest → ∀ checked ∈ call.checked, ∀ observedAt,
    (FeedHistory.run tables maximum before).store.Admits checked observedAt →
      Coherent (FeedHistory.run tables maximum before) checked

/-! ### Merging -/

section

variable {current : Option FeedTick} {packet : DhanFeedPacket}

theorem currentFields_nodup (hnodup : ∀ tick ∈ current, (tick.fields.map Prod.fst).Nodup) :
    (((current.map FeedTick.fields).getD []).map Prod.fst).Nodup := by
  cases current with
  | none => exact List.nodup_nil
  | some tick => exact hnodup tick rfl

theorem mergeFields_nodup (hnodup : ∀ tick ∈ current, (tick.fields.map Prod.fst).Nodup) :
    ((MarketReadModelStore.mergeFields current packet).map Prod.fst).Nodup := by
  refine (List.Perm.map Prod.fst (List.perm_insertionSort _ _)).nodup_iff.mpr ?_
  exact Dict.update_nodup (currentFields_nodup hnodup)

/-- A field of the merged tick is the packet's, or one of the cached tick that the packet does not bring. -/
theorem mem_mergeFields (hnodup : ∀ tick ∈ current, (tick.fields.map Prod.fst).Nodup)
    {field : String × FieldValue} (h : field ∈ MarketReadModelStore.mergeFields current packet) :
    field ∈ packet.fields ∨
      ∃ tick ∈ current, field ∈ tick.fields ∧ ∀ update ∈ packet.fields, field.1 ≠ update.1 := by
  rcases Dict.mem_update (currentFields_nodup hnodup) ((List.perm_insertionSort _ _).mem_iff.mp h) with hnew | hold
  · exact .inl hnew
  · cases current with
    | none => cases hold.1
    | some tick => exact .inr ⟨tick, rfl, hold⟩

end

/-! ### Runs -/

variable {h h' : FeedHistory} {key : Int × String} {observedAt : Datetime} {fields : List (String × FieldValue)}
  {depth : List DhanDepthLevel}

/-- More packets leave the description as it is, unless a primary one is of its instrument. -/
theorem DescribesOne.mono (hone : DescribesOne h key observedAt fields depth) (hpublished : h.published ⊆ h'.published)
    {more : List CheckedPacket} (haccepted : h'.accepted = h.accepted ++ more)
    (hmore : ∀ checked ∈ more, checked.feedKey = key → checked.primaryPrice = false) :
    DescribesOne h' key observedAt fields depth where
  published := hpublished hone.published
  sources field hfield := by
    obtain ⟨checked, hmem, hsource⟩ := hone.sources field hfield
    exact ⟨checked, haccepted ▸ List.mem_append_left _ hmem, hsource⟩
  levels := by
    rcases hone.levels with hnone | ⟨checked, hmem, hsource⟩
    · exact .inl hnone
    · exact .inr ⟨checked, haccepted ▸ List.mem_append_left _ hmem, hsource⟩
  primary := by
    obtain ⟨before, checked, after, hsplit, hkey, hprimary, hlast, htime, hprices⟩ := hone.primary
    refine ⟨before, checked, after ++ more, ?_, hkey, hprimary, fun later hlater hsame => ?_, htime, hprices⟩
    · rw [haccepted, hsplit, List.append_assoc, List.cons_append]
    · rcases List.mem_append.mp hlater with hmem | hmem
      · exact hlast later hmem hsame
      · exact hmore later hmem hsame

/-- What holds of the cache along a coherent run. -/
structure Sourced (h : FeedHistory) : Prop where
  filed : (h.store.ticks.map Prod.fst).Nodup
  keyed : ∀ item ∈ h.store.ticks, item.2.securityId = item.1
  distinct : ∀ item ∈ h.store.ticks, (item.2.fields.map Prod.fst).Nodup
  describes : ∀ item ∈ h.store.ticks,
    DescribesOne h (item.2.exchangeSegmentCode, item.1) item.2.observedAt item.2.fields item.2.depth

section

variable {checked : CheckedPacket}

theorem mergedTick_depth (store : MarketReadModelStore) (checked : CheckedPacket) (observedAt : Datetime) :
    (store.mergedTick checked observedAt).depth = if checked.depth = [] then
      ((store.ticks.lookup checked.packet.securityId).map FeedTick.depth).getD [] else checked.depth := rfl

theorem Sourced.lookup (hsourced : Sourced h) {securityId : String} {tick : FeedTick}
    (htick : h.store.ticks.lookup securityId = some tick) :
    (tick.fields.map Prod.fst).Nodup ∧
      DescribesOne h (tick.exchangeSegmentCode, securityId) tick.observedAt tick.fields tick.depth :=
  ⟨hsourced.distinct _ (Dict.mem_of_lookup htick), hsourced.describes _ (Dict.mem_of_lookup htick)⟩

/-- A primary packet is the source of the price, and of every field that does not stay with its instrument. -/
theorem Coherent.describes_primary (hsourced : Sourced h) (hcoherent : Coherent h checked)
    (hprimary : checked.primaryPrice = true) (hpublished : h.published ⊆ h'.published)
    (haccepted : h'.accepted = h.accepted ++ [checked]) (observedAt : Datetime) :
    DescribesOne h' checked.feedKey checked.checkTime (h.store.mergedTick checked observedAt).fields
      (h.store.mergedTick checked observedAt).depth := by
  have hlast : checked ∈ h'.accepted := haccepted ▸ List.mem_append_right _ (List.mem_singleton_self _)
  have hfields (field : String × FieldValue) (hfield : field ∈ (h.store.mergedTick checked observedAt).fields) :=
    mem_mergeFields (fun tick htick => (hsourced.lookup htick).1) hfield
  refine ⟨hpublished hcoherent.published, fun field hfield => ?_, ?_, h.accepted, checked, [], haccepted, rfl, hprimary,
    (fun _ hmem => nomatch hmem), rfl, fun field hfield hprice => ?_⟩
  · rcases hfields field hfield with hnew | ⟨tick, htick, hold, hkept⟩
    · exact ⟨checked, hlast, rfl, hnew⟩
    · rcases hcoherent.continues tick htick with hsame | ⟨-, hcovers, -⟩
      · obtain ⟨source, hsource, hkey, hmem⟩ := (hsourced.lookup htick).2.sources field hold
        refine ⟨source, haccepted ▸ List.mem_append_left _ hsource, ?_, hmem⟩
        rw [hkey, hsame]
        rfl
      · obtain ⟨update, hupdate, hname⟩ := hcovers field hold
        exact absurd hname (hkept update hupdate)
  · rw [mergedTick_depth]
    split
    · rename_i hlevels
      cases htick : h.store.ticks.lookup checked.packet.securityId with
      | none => exact .inl rfl
      | some tick =>
          rcases hcoherent.continues tick htick with hsame | ⟨-, -, hcovers⟩
          · rcases (hsourced.lookup htick).2.levels with hnone | ⟨source, hsource, hkey, hdepth⟩
            · exact .inl hnone
            · refine .inr ⟨source, haccepted ▸ List.mem_append_left _ hsource, ?_, hdepth⟩
              rw [hkey, hsame]
              rfl
          · exact .inl (hcovers.resolve_right (not_not.mpr hlevels))
    · exact .inr ⟨checked, hlast, rfl, rfl⟩
  · rcases hfields field hfield with hnew | ⟨tick, htick, hold, hkept⟩
    · exact hnew
    · obtain ⟨update, hupdate, hname⟩ := hcoherent.renewed hprimary tick htick field hold hprice
      exact absurd hname (hkept update hupdate)

/-- Another packet keeps the price and the time of the tick it enriches. -/
theorem Coherent.describes_other (hsourced : Sourced h) (hcoherent : Coherent h checked)
    (hprimary : checked.primaryPrice = false) (hpublished : h.published ⊆ h'.published)
    (haccepted : h'.accepted = h.accepted ++ [checked]) {tick : FeedTick}
    (htick : h.store.ticks.lookup checked.packet.securityId = some tick) (observedAt : Datetime) :
    DescribesOne h' checked.feedKey tick.observedAt (h.store.mergedTick checked observedAt).fields
      (h.store.mergedTick checked observedAt).depth := by
  have hsame : tick.exchangeSegmentCode = checked.packet.exchangeSegmentCode :=
    (hcoherent.continues tick htick).resolve_right fun hother => by simp [hprimary] at hother
  have hold := (hsourced.lookup htick).2
  rw [hsame] at hold
  have hlast : checked ∈ h'.accepted := haccepted ▸ List.mem_append_right _ (List.mem_singleton_self _)
  have hfields (field : String × FieldValue) (hfield : field ∈ (h.store.mergedTick checked observedAt).fields) :
      field ∈ checked.packet.fields ∨ field ∈ tick.fields := by
    rcases mem_mergeFields (fun tick htick => (hsourced.lookup htick).1) hfield with hnew | ⟨other, hother, hmem, -⟩
    · exact .inl hnew
    · cases htick.symm.trans hother
      exact .inr hmem
  have hlonger := hold.mono hpublished haccepted fun _ hmem _ => List.mem_singleton.mp hmem ▸ hprimary
  refine ⟨hlonger.published, fun field hfield => ?_, ?_, ?_⟩
  · rcases hfields field hfield with hnew | hmem
    · exact ⟨checked, hlast, rfl, hnew⟩
    · exact hlonger.sources field hmem
  · rw [mergedTick_depth]
    split
    · rw [htick]
      exact hlonger.levels
    · exact .inr ⟨checked, hlast, rfl, rfl⟩
  · obtain ⟨before, source, after, hsplit, hkey, hsource, hafter, htime, hprices⟩ := hlonger.primary
    refine ⟨before, source, after, hsplit, hkey, hsource, hafter, htime, fun field hfield hprice => ?_⟩
    rcases hfields field hfield with hnew | hmem
    · exact absurd hprice (hcoherent.kept hprimary field hnew)
    · exact hprices field hmem hprice

/-- What one call keeps. -/
theorem Sourced.turn (hsourced : Sourced h) (tables : CharTables) (call : Call)
    (hcoherent : ∀ checked ∈ call.checked, ∀ observedAt, h.store.Admits checked observedAt → Coherent h checked) :
    Sourced (h.turn tables call) := by
  have hpublished : h.published ⊆ (h.turn tables call).published := List.subset_append_left _ _
  -- A call that leaves the ticks leaves the packets too.
  have hquiet (hticks : (h.turn tables call).store.ticks = h.store.ticks)
      (haccepted : (h.turn tables call).accepted = h.accepted ++ []) : Sourced (h.turn tables call) := by
    refine ⟨hticks ▸ hsourced.filed, hticks ▸ hsourced.keyed, hticks ▸ hsourced.distinct, ?_⟩
    rw [hticks]
    exact fun item hitem => (hsourced.describes item hitem).mono hpublished haccepted fun _ hmem => nomatch hmem
  cases call with
  | publish snapshot report analysis =>
      refine hquiet (perform_publish_ticks tables h.store snapshot report analysis).1 ?_
      rw [FeedHistory.turn_accepted]
      exact congrArg (h.accepted ++ ·) (ite_self [])
  | publishFeedTick packet receivedAt clock =>
      rcases perform_tick_cases tables h.store packet receivedAt clock with
        ⟨hsame, hreturned⟩ | ⟨checked, observedAt, hchecked, hadmits, hreturned, hticked⟩
      · refine hquiet (congrArg MarketReadModelStore.ticks hsame) ?_
        rw [FeedHistory.turn_accepted, if_neg hreturned]
      · have hbrings : (Call.publishFeedTick packet receivedAt clock).checked = some checked := by
          simp [Call.checked, hchecked, Except.toOption]
        have haccepted : (h.turn tables (.publishFeedTick packet receivedAt clock)).accepted = h.accepted ++ [checked] := by
          rw [FeedHistory.turn_accepted, if_pos hreturned, hbrings]
          rfl
        have hone : DescribesOne (h.turn tables (.publishFeedTick packet receivedAt clock)) checked.feedKey observedAt
            (h.store.mergedTick checked observedAt).fields (h.store.mergedTick checked observedAt).depth := by
          have hcoherent := hcoherent checked hbrings observedAt hadmits
          have hselected := hadmits.selected
          unfold MarketReadModelStore.selectedObservedAt at hselected
          split at hselected
          · rename_i hprimary
            split at hselected
            · cases hselected
            · cases hselected
              exact hcoherent.describes_primary hsourced hprimary hpublished haccepted _
          · rename_i hprimary
            obtain ⟨tick, htick, rfl⟩ := Option.map_eq_some_iff.mp hselected
            exact hcoherent.describes_other hsourced (by simpa using hprimary) hpublished haccepted htick _
        have hstore : (h.turn tables (.publishFeedTick packet receivedAt clock)).store.ticks = _ := hticked.ticks
        refine ⟨?_, ?_, ?_, ?_⟩
        all_goals rw [hstore]
        · exact Dict.assign_nodup hsourced.filed
        · intro item hitem
          rcases Dict.mem_assign hitem with rfl | hold
          · rfl
          · exact hsourced.keyed item hold
        · intro item hitem
          rcases Dict.mem_assign hitem with rfl | hold
          · exact mergeFields_nodup fun tick htick => (hsourced.lookup htick).1
          · exact hsourced.distinct item hold
        · intro item hitem
          rcases Dict.mem_assign_of_nodup hsourced.filed hitem with rfl | ⟨hold, hother⟩
          · exact hone
          · refine (hsourced.describes item hold).mono hpublished haccepted fun later hlater hkey => ?_
            obtain rfl := List.mem_singleton.mp hlater
            exact absurd (congrArg Prod.snd hkey).symm hother

end

/-- In a coherent run, what a reader gets at any moment describes one published instrument, its price and
observation time those of the instrument's latest primary packet. -/
theorem latestFeedTick_describesOne (tables : CharTables) (maximum : Nat) (calls : List Call)
    (hcoherent : CoherentRun tables maximum calls) (before rest : List Call) (hsplit : calls = before ++ rest)
    (strategy : StrategyConfig) (securityId : String) (now : Option Datetime) (clock : Datetime) (view : FeedTickView)
    (hview : (runCalls tables (.new maximum) before).latestFeedTick strategy securityId now clock = .ok (some view)) :
    ∃ observedAt : Datetime, view.observedAt = observedAt.isoformat ∧
      DescribesOne (FeedHistory.run tables maximum before) (view.exchangeSegmentCode, view.securityId) observedAt
        view.fields view.depth := by
  have hsourced : Sourced (FeedHistory.run tables maximum before) := by
    refine Run.invariant Sourced ⟨?_, ?_, ?_, ?_⟩ (fun before call rest hsplit hsourced => ?_) before rest hsplit
    · exact List.nodup_nil
    · exact fun _ hmem => nomatch hmem
    · exact fun _ hmem => nomatch hmem
    · exact fun _ hmem => nomatch hmem
    · exact hsourced.turn tables call (hcoherent before call rest hsplit)
  obtain ⟨normalized, -, hview⟩ := Except.bind_eq_ok.mp hview
  obtain ⟨time, -, hview⟩ := Except.bind_eq_ok.mp hview
  rw [← FeedHistory.run_store] at hview
  split at hview
  · cases hview
  · rename_i tick htick
    obtain ⟨shown, hshown, hsame⟩ := Except.map_eq_ok.mp hview
    obtain rfl := Option.some.inj hsame
    obtain ⟨complete, -, hshown⟩ := Except.bind_eq_ok.mp hshown
    cases hshown
    refine ⟨tick.observedAt, rfl, ?_⟩
    have hmem := Dict.mem_of_lookup htick
    have hkeyed : tick.securityId = normalized := hsourced.keyed _ hmem
    show DescribesOne _ (tick.exchangeSegmentCode, tick.securityId) tick.observedAt tick.fields tick.depth
    rw [hkeyed]
    exact hsourced.describes _ hmem

/-! ### Two exchanges, one id -/

def mcxContract : ContractSpec := { SignalPipeline.tieContract with
  underlying := ⟨.mcx, "MCX_COMM", "13", "CRUDEOIL"⟩
  marketKind := .commodity
  optionContracts := [] }

def mcxSnapshot : AtomicSnapshot := { SignalPipeline.tieSnapshot with
  contract := mcxContract
  metadata := [("normalized_component_hashes",
    stringDict (normalizedComponentHashes mcxContract SignalPipeline.tieMarket SignalPipeline.tieTechnicals
      SignalPipeline.tieContext SignalPipeline.tieChain))]
  hashed := rfl }

def mcxReport : Ingestion.ValidationReport := ⟨[], mcxSnapshot.snapshotId, contentHash mcxSnapshot⟩

def mcxPublication : PublishedSnapshot := published asciiTables mcxSnapshot mcxReport none

/-- A full packet of the instrument of the first exchange. -/
def fullPacket : DhanFeedPacket where
  responseCode := 8
  exchangeSegmentCode := 2
  securityId := "13"
  fields := [("last_price", .int 100), ("last_trade_epoch", .int 1), ("open_interest", .int 7)]
  depth := []

/-- The two exchanges publish an instrument under one id. -/
def exchangeCalls : List Call := [
  .publish (legSnapshot 2 "1") (legReport 2 "1") none,
  .publish mcxSnapshot mcxReport none,
  .publishFeedTick fullPacket none SignalPipeline.tieTime]

theorem publication_mcx : publication asciiTables mcxSnapshot mcxReport none = .ok mcxPublication := by
  have hsource : mcxSnapshot.sourceTimestamp.Aware := tieTime_aware
  have hreceived : mcxSnapshot.receivedAt.Aware := tieTime_aware
  have hid : mcxReport.snapshotId = some mcxSnapshot.snapshotId := by rw [mcxReport]
  have hhash : mcxReport.snapshotHash = some (contentHash mcxSnapshot) := by rw [mcxReport]
  have hnamed : ¬PyText.Blank (selectionSymbol mcxSnapshot) := by
    have hsymbol : selectionSymbol mcxSnapshot = "CRUDEOIL" := by
      rw [selectionSymbol, mcxSnapshot]
      simp only [List.lookup_cons]
      rfl
    rw [hsymbol]
    decide
  exact publication_published asciiTables _ _ none hsource hreceived hid hhash rfl hnamed

theorem mcxPublication_key : mcxPublication.key ≠ (legPublication 2 "1").key := by
  intro hsame
  have hmarket : marketId asciiTables mcxSnapshot = "MCX" := by
    unfold marketId mcxSnapshot
    rfl
  have hother : marketId asciiTables (legSnapshot 2 "1") = "NIFTY13" := by
    unfold marketId legSnapshot
    decide
  have hmarkets : marketId asciiTables mcxSnapshot = marketId asciiTables (legSnapshot 2 "1") :=
    congrArg SelectionKey.marketId hsame
  rw [hmarket, hother] at hmarkets
  exact absurd hmarkets (by decide)

theorem fullPacket_valid : fullPacket.ValidPrimary where
  code := by decide
  identified := by decide
  fields := by decide +kernel
  traded := ⟨.utc 1000000, by decide +kernel⟩
  depth := ⟨[], rfl⟩

theorem turn_publish {h : FeedHistory} {tables : CharTables} {snapshot : AtomicSnapshot}
    {report : Ingestion.ValidationReport} {analysis : Option SignalPipelineResult} {p : PublishedSnapshot}
    (hpublication : publication tables snapshot report analysis = .ok p) (hopen : h.store.closed = false)
    (hdated : p.Dated) (hnew : h.store.latest.lookup p.key = none) :
    let next := h.turn tables (.publish snapshot report analysis)
    next.accepted = h.accepted ∧ next.store.latest = Dict.assign p.key p h.store.latest ∧
      next.store.ticks = h.store.ticks ∧ next.store.closed = false ∧
      next.store.maximumTickInstruments = h.store.maximumTickInstruments := by
  refine ⟨?_, perform_publish hpublication hopen hdated fun current hcurrent => by cases hnew.symm.trans hcurrent⟩
  rw [FeedHistory.turn_accepted]
  exact (congrArg (h.accepted ++ ·) (ite_self [])).trans (List.append_nil _)

theorem turn_published (tables : CharTables) (h : FeedHistory) (call : Call) : (h.turn tables call).published =
    h.published ++ (h.turn tables call).store.latest.flatMap fun item => item.2.feedKeys := rfl

theorem turn_tick {h : FeedHistory} (tables : CharTables) {packet : DhanFeedPacket} {receivedAt : Option Datetime}
    {clock observedAt : Datetime} {checked : CheckedPacket}
    (hchecked : checkPacket packet receivedAt clock = .ok (some checked)) (hadmits : h.store.Admits checked observedAt) :
    let next := h.turn tables (.publishFeedTick packet receivedAt clock)
    next.accepted = h.accepted ++ [checked] ∧
      Ticked h.store next.store
        (Dict.assign checked.packet.securityId (h.store.mergedTick checked observedAt) h.store.ticks) := by
  obtain ⟨store', hmerged, hticked⟩ := mergeTick_admits hadmits
  have hperform := perform_tick tables h.store hchecked
  rw [hmerged] at hperform
  refine ⟨?_, ?_⟩
  · rw [FeedHistory.turn_accepted, hperform, if_pos rfl]
    simp [Call.checked, hchecked, Except.toOption]
  · show Ticked h.store (perform tables h.store (.publishFeedTick packet receivedAt clock)).2 _
    rw [hperform]
    exact hticked

/-- Both instruments are published, and the cache holds one tick of their id, without levels. -/
structure Ticking (h : FeedHistory) (segmentCode : Int) (observedAt : Datetime) (fields : List (String × FieldValue)) :
    Prop where
  opened : h.store.closed = false
  known : "13" ∈ h.store.knownSecurityIds
  published : (2, "13") ∈ h.published ∧ (5, "13") ∈ h.published
  tick : ∃ tick, h.store.ticks.lookup "13" = some tick ∧ tick.exchangeSegmentCode = segmentCode ∧
    tick.securityId = "13" ∧ tick.observedAt = observedAt ∧ tick.fields = fields ∧ tick.depth = []

theorem Ticking.turn {h : FeedHistory} {segmentCode : Int} {observedAt : Datetime}
    {fields : List (String × FieldValue)} (hticking : Ticking h segmentCode observedAt fields)
    (merged : List (String × FieldValue)) {packet : DhanFeedPacket} {clock : Datetime} {primaryPrice : Bool}
    (hchecked : checkPacket packet none clock = .ok (some ⟨packet, clock, primaryPrice, []⟩))
    (hid : packet.securityId = "13") (hlater : observedAt.instant < clock.instant)
    (hmerged : ∀ tick : FeedTick, tick.fields = fields →
      MarketReadModelStore.mergeFields (some tick) packet = merged) :
    Ticking (h.turn asciiTables (.publishFeedTick packet none clock)) packet.exchangeSegmentCode
        (if primaryPrice then clock else observedAt) merged ∧
      (h.turn asciiTables (.publishFeedTick packet none clock)).accepted =
        h.accepted ++ [⟨packet, clock, primaryPrice, []⟩] := by
  obtain ⟨tick, htick, -, -, hobserved, hfields, hdepth⟩ := hticking.tick
  have hselected : MarketReadModelStore.selectedObservedAt (h.store.ticks.lookup packet.securityId)
      ⟨packet, clock, primaryPrice, []⟩ = some (if primaryPrice then clock else observedAt) := by
    rw [hid, htick]
    cases primaryPrice with
    | true => simp [MarketReadModelStore.selectedObservedAt, hobserved, hlater]
    | false => simp [MarketReadModelStore.selectedObservedAt, hobserved]
  obtain ⟨haccepted, hticked⟩ := turn_tick asciiTables hchecked
    ⟨hticking.opened, hid ▸ hticking.known, hselected, .inl ⟨tick, hid ▸ htick⟩⟩
  have hpublished := turn_published asciiTables h (.publishFeedTick packet none clock)
  refine ⟨⟨hticked.closed.trans hticking.opened, ?_, ?_, ?_⟩, haccepted⟩
  · show "13" ∈ (h.turn asciiTables _).store.latest.flatMap _
    rw [hticked.latest]
    exact hticking.known
  · rw [hpublished]
    exact ⟨List.mem_append_left _ hticking.published.1, List.mem_append_left _ hticking.published.2⟩
  · have hcached : (h.turn asciiTables (.publishFeedTick packet none clock)).store.ticks.lookup "13" =
        some (h.store.mergedTick ⟨packet, clock, primaryPrice, []⟩ (if primaryPrice then clock else observedAt)) := by
      rw [hticked.ticks, ← hid]
      exact Dict.lookup_assign_self
    refine ⟨_, hcached, rfl, hid, rfl, ?_, ?_⟩
    · show MarketReadModelStore.mergeFields (h.store.ticks.lookup packet.securityId) packet = merged
      rw [hid, htick]
      exact hmerged tick hfields
    · rw [mergedTick_depth, if_pos rfl, hid, htick]
      exact hdepth

/-- A valid primary packet without levels passes the checks. -/
theorem checkPacket_primary {packet : DhanFeedPacket} (hvalid : packet.ValidPrimary) (hdepth : packet.depth = [])
    (clock : Datetime) (haware : clock.Aware) :
    checkPacket packet none clock = .ok (some ⟨packet, clock, true, []⟩) := by
  obtain ⟨levels, hlevels, hchecked⟩ :=
    checkPacket_validPrimary hvalid (show ((none : Option Datetime).getD clock).Aware from haware)
  rw [hdepth] at hlevels
  obtain rfl : levels = [] := (Except.ok.inj hlevels).symm
  exact hchecked

/-- The two publications leave an empty cache that knows both instruments. -/
theorem run_exchanges_published :
    let h := FeedHistory.run asciiTables 2 (exchangeCalls.take 2)
    h.accepted = [] ∧ h.store.ticks = [] ∧ h.store.closed = false ∧ h.store.maximumTickInstruments = 2 ∧
      "13" ∈ h.store.knownSecurityIds ∧ (2, "13") ∈ h.published ∧ (5, "13") ∈ h.published := by
  have hlegKeys : (legPublication 2 "1").feedKeys = [(2, "13"), (2, "1")] := by decide
  have hmcxKeys : mcxPublication.feedKeys = [(5, "13")] := by decide
  obtain ⟨haccepted, hlatest, hticks, hopen, hmaximum⟩ := turn_publish (h := ⟨.new 2, [], []⟩)
    (publication_leg 2 "1") rfl (legPublication_dated 2 "1") rfl
  unfold FeedHistory.run exchangeCalls
  rw [List.take_succ_cons, List.take_succ_cons, List.take_zero, List.foldl_cons, List.foldl_cons, List.foldl_nil]
  generalize FeedHistory.turn asciiTables _ (.publish (legSnapshot 2 "1") _ _) = first at *
  have hother : first.store.latest.lookup mcxPublication.key = none := by
    rw [hlatest]
    show List.lookup mcxPublication.key [((legPublication 2 "1").key, _)] = none
    rw [List.lookup_cons, beq_false_of_ne mcxPublication_key]
    rfl
  obtain ⟨haccepted', hlatest', hticks', hopen', hmaximum'⟩ := turn_publish publication_mcx hopen
    (dated_of_snapshot rfl rfl rfl) hother
  have hpublished := turn_published asciiTables first (.publish mcxSnapshot mcxReport none)
  generalize FeedHistory.turn asciiTables first _ = second at *
  have hboth : second.store.latest =
      [((legPublication 2 "1").key, legPublication 2 "1"), (mcxPublication.key, mcxPublication)] := by
    rw [hlatest', hlatest]
    show Dict.assign mcxPublication.key mcxPublication [((legPublication 2 "1").key, legPublication 2 "1")] = _
    rw [Dict.assign, if_neg mcxPublication_key.symm]
    rfl
  refine ⟨haccepted'.trans haccepted, hticks'.trans hticks, hopen', hmaximum'.trans hmaximum, ?_, ?_, ?_⟩
  · refine List.mem_flatMap.mpr ⟨((legPublication 2 "1").key, legPublication 2 "1"), ?_, List.mem_cons_self⟩
    rw [hboth]
    exact List.mem_cons_self
  · rw [hpublished, hboth, List.flatMap_cons, hlegKeys]
    simp
  · rw [hpublished, hboth, List.flatMap_cons, List.flatMap_singleton, hmcxKeys]
    simp

/-- The instrument of the first exchange ticks. -/
theorem run_exchanges :
    Ticking (FeedHistory.run asciiTables 2 exchangeCalls) 2 SignalPipeline.tieTime fullPacket.fields ∧
      (FeedHistory.run asciiTables 2 exchangeCalls).accepted =
        [⟨fullPacket, SignalPipeline.tieTime, true, []⟩] := by
  have hrun : FeedHistory.run asciiTables 2 exchangeCalls = (FeedHistory.run asciiTables 2 (exchangeCalls.take 2)).turn
      asciiTables (.publishFeedTick fullPacket none SignalPipeline.tieTime) := by
    rw [← FeedHistory.run_append]
    rfl
  obtain ⟨haccepted, hticks, hopen, hmaximum, hknown, hfirst, hsecond⟩ := run_exchanges_published
  rw [hrun]
  generalize FeedHistory.run asciiTables 2 (exchangeCalls.take 2) = h at *
  have hselected : MarketReadModelStore.selectedObservedAt (h.store.ticks.lookup fullPacket.securityId)
      ⟨fullPacket, SignalPipeline.tieTime, true, []⟩ = some SignalPipeline.tieTime := by
    rw [hticks]
    rfl
  have hroom : h.store.ticks.length < h.store.maximumTickInstruments := by
    rw [hticks, hmaximum]
    exact Nat.two_pos
  obtain ⟨htaken, hticked⟩ := turn_tick asciiTables
    (checkPacket_primary fullPacket_valid rfl SignalPipeline.tieTime tieTime_aware) ⟨hopen, hknown, hselected, .inr hroom⟩
  have hpublished := turn_published asciiTables h (.publishFeedTick fullPacket none SignalPipeline.tieTime)
  refine ⟨⟨hticked.closed.trans hopen, ?_, ?_, ?_⟩, by rw [htaken, haccepted]; rfl⟩
  · show "13" ∈ (h.turn asciiTables _).store.latest.flatMap _
    rw [hticked.latest]
    exact hknown
  · rw [hpublished]
    exact ⟨List.mem_append_left _ hfirst, List.mem_append_left _ hsecond⟩
  · have hcached : (h.turn asciiTables (.publishFeedTick fullPacket none SignalPipeline.tieTime)).store.ticks.lookup
        "13" = some (h.store.mergedTick ⟨fullPacket, SignalPipeline.tieTime, true, []⟩ SignalPipeline.tieTime) := by
      rw [hticked.ticks]
      exact Dict.lookup_assign_self
    refine ⟨_, hcached, rfl, rfl, rfl, ?_, ?_⟩
    · show MarketReadModelStore.mergeFields (h.store.ticks.lookup "13") fullPacket = _
      rw [hticks]
      decide
    · rw [mergedTick_depth, if_pos rfl, hticks]
      rfl

/-- The instrument of the other exchange ticks a second later. -/
def mixedCalls : List Call :=
  exchangeCalls ++ [.publishFeedTick (tickPacket 5 "13") none (SignalPipeline.tieTime.plus 1000000)]

/-- The cached tick is of the second exchange and still holds the open interest of the first. -/
theorem run_mixed :
    Ticking (FeedHistory.run asciiTables 2 mixedCalls) 5 (SignalPipeline.tieTime.plus 1000000) fullPacket.fields ∧
      (FeedHistory.run asciiTables 2 mixedCalls).accepted = [⟨fullPacket, SignalPipeline.tieTime, true, []⟩,
        ⟨tickPacket 5 "13", SignalPipeline.tieTime.plus 1000000, true, []⟩] := by
  obtain ⟨hticking, haccepted⟩ := run_exchanges
  rw [mixedCalls, FeedHistory.run_append]
  obtain ⟨hnext, htaken⟩ := hticking.turn fullPacket.fields
    (checkPacket_primary (tickPacket_valid 5 (show "13" ≠ "" by decide)) rfl (SignalPipeline.tieTime.plus 1000000)
      tieTime_aware) rfl (by decide) fun tick hfields => by
    show MarketReadModelStore.mergeFields (some tick) (tickPacket 5 "13") = fullPacket.fields
    rw [MarketReadModelStore.mergeFields, Option.map_some, Option.getD_some, hfields]
    decide
  exact ⟨hnext, by rw [htaken, haccepted]; rfl⟩

/-- A cached tick without a volume and without levels can be read. -/
theorem latestFeedTick_cached {store : MarketReadModelStore} {securityId : String} {tick : FeedTick} {clock : Datetime}
    (strategy : StrategyConfig) (hid : requiredSecurityId securityId = .ok securityId) (haware : clock.Aware)
    (htick : store.ticks.lookup securityId = some tick)
    (hcomplete : ∀ fresh, completeQuote fresh tick.fields (tick.depth.head?.map DhanDepthLevel.bidPrice)
      (tick.depth.head?.map DhanDepthLevel.askPrice) = .ok false) :
    ∃ view, store.latestFeedTick strategy securityId none clock = .ok (some view) ∧
      view.exchangeSegmentCode = tick.exchangeSegmentCode ∧ view.securityId = tick.securityId ∧
      view.fields = tick.fields := by
  simp [MarketReadModelStore.latestFeedTick, hid, checkTime, requireAware, haware, htick, viewTick, hcomplete, bind,
    Except.bind, pure, Except.pure, Functor.map, Except.map]

theorem latestFeedTick_mixed :
    ¬∀ (tables : CharTables) (maximum : Nat) (calls : List Call) (strategy : StrategyConfig) (securityId : String)
      (now : Option Datetime) (clock : Datetime) (view : FeedTickView),
      (runCalls tables (.new maximum) calls).latestFeedTick strategy securityId now clock = .ok (some view) →
        ∃ observedAt : Datetime, view.observedAt = observedAt.isoformat ∧
          DescribesOne (FeedHistory.run tables maximum calls) (view.exchangeSegmentCode, view.securityId) observedAt
            view.fields view.depth := by
  intro hall
  obtain ⟨hticking, haccepted⟩ := run_mixed
  obtain ⟨tick, htick, hsegment, hid, -, hfields, hdepth⟩ := hticking.tick
  have hcomplete (fresh : Bool) : completeQuote fresh tick.fields (tick.depth.head?.map DhanDepthLevel.bidPrice)
      (tick.depth.head?.map DhanDepthLevel.askPrice) = .ok false := by
    rw [hfields, hdepth]
    cases fresh <;> decide +kernel
  rw [FeedHistory.run_store] at htick
  obtain ⟨view, hview, hviewSegment, hviewId, hviewFields⟩ :=
    latestFeedTick_cached DEFAULT_STRATEGY_CONFIG (by decide) tieTime_aware htick hcomplete
  obtain ⟨_, -, hone⟩ := hall asciiTables 2 mixedCalls DEFAULT_STRATEGY_CONFIG "13" none SignalPipeline.tieTime view hview
  have hopenInterest : ("open_interest", FieldValue.int 7) ∈ view.fields := by
    rw [hviewFields, hfields]
    decide
  obtain ⟨source, hsource, hkey, hfield⟩ := hone.sources _ hopenInterest
  rw [haccepted] at hsource
  rw [hviewSegment, hsegment, CheckedPacket.feedKey] at hkey
  rcases List.mem_pair.mp hsource with rfl | rfl
  · exact absurd (congrArg Prod.fst hkey) (show fullPacket.exchangeSegmentCode ≠ 5 by decide)
  · exact absurd hfield (show ("open_interest", FieldValue.int 7) ∉ (tickPacket 5 "13").fields by decide)

/-- The open interest of the instrument of the first exchange. -/
def oiPacket : DhanFeedPacket where
  responseCode := 5
  exchangeSegmentCode := 2
  securityId := "13"
  fields := [("open_interest", .int 9)]
  depth := []

/-- A full packet of the instrument of the other exchange. -/
def movedPacket : DhanFeedPacket where
  responseCode := 8
  exchangeSegmentCode := 5
  securityId := "13"
  fields := [("last_price", .int 50), ("last_trade_epoch", .int 2), ("open_interest", .int 3)]
  depth := []

/-- The tick of the first exchange goes on, then the other exchange brings all its fields anew. -/
def movedCalls : List Call := exchangeCalls ++ [
  .publishFeedTick oiPacket none (SignalPipeline.tieTime.plus 1000000),
  .publishFeedTick movedPacket none (SignalPipeline.tieTime.plus 2000000)]

theorem movedPacket_valid : movedPacket.ValidPrimary where
  code := by decide
  identified := by decide
  fields := by decide +kernel
  traded := ⟨.utc 2000000, by decide +kernel⟩
  depth := ⟨[], rfl⟩

theorem checkPacket_oi : checkPacket oiPacket none (SignalPipeline.tieTime.plus 1000000) =
    .ok (some ⟨oiPacket, SignalPipeline.tieTime.plus 1000000, false, []⟩) := by
  have haware : (SignalPipeline.tieTime.plus 1000000).Aware := tieTime_aware
  have hfields : rejected (oiPacket.fields.map Prod.snd) = .ok false := by decide +kernel
  have hcode : oiPacket.responseCode = 5 := rfl
  have hid : oiPacket.securityId = "13" := rfl
  have hdepth : oiPacket.depth = [] := rfl
  simp [checkPacket, hfields, hcode, hid, hdepth, checkTime, requireAware, haware, bind, Except.bind, pure, Except.pure]

/-- The fields of a packet over those of a tick. -/
theorem mergeFields_of_fields {fields : List (String × FieldValue)} (packet : DhanFeedPacket) (tick : FeedTick)
    (h : tick.fields = fields) : MarketReadModelStore.mergeFields (some tick) packet =
      (packet.fields.foldl (fun fields (name, value) => Dict.assign name value fields) fields).insertionSort
        fun left right => left.1 ≤ right.1 := by
  rw [MarketReadModelStore.mergeFields, Option.map_some, Option.getD_some, h]

/-- Before each packet the run is coherent with it, and after the last the tick is the other exchange's. -/
theorem run_moved :
    Coherent (FeedHistory.run asciiTables 2 (exchangeCalls.take 2)) ⟨fullPacket, SignalPipeline.tieTime, true, []⟩ ∧
    Coherent (FeedHistory.run asciiTables 2 exchangeCalls)
      ⟨oiPacket, SignalPipeline.tieTime.plus 1000000, false, []⟩ ∧
    Coherent (FeedHistory.run asciiTables 2 (movedCalls.take 4))
      ⟨movedPacket, SignalPipeline.tieTime.plus 2000000, true, []⟩ ∧
    Ticking (FeedHistory.run asciiTables 2 movedCalls) 5 (SignalPipeline.tieTime.plus 2000000)
      movedPacket.fields := by
  obtain ⟨-, hticks, -, -, -, hfirst, -⟩ := run_exchanges_published
  obtain ⟨hticking, -⟩ := run_exchanges
  have hsecond : FeedHistory.run asciiTables 2 (movedCalls.take 4) = (FeedHistory.run asciiTables 2 exchangeCalls).turn
      asciiTables (.publishFeedTick oiPacket none (SignalPipeline.tieTime.plus 1000000)) := by
    rw [← FeedHistory.run_append]
    rfl
  have hlast : FeedHistory.run asciiTables 2 movedCalls = (FeedHistory.run asciiTables 2 (movedCalls.take 4)).turn
      asciiTables (.publishFeedTick movedPacket none (SignalPipeline.tieTime.plus 2000000)) := by
    rw [← FeedHistory.run_append]
    rfl
  obtain ⟨hnext, -⟩ := hticking.turn [("last_price", .int 100), ("last_trade_epoch", .int 1),
    ("open_interest", .int 9)] checkPacket_oi rfl (by decide) fun tick hfields => by
      rw [mergeFields_of_fields oiPacket tick hfields]
      decide
  rw [← hsecond, if_neg (by decide)] at hnext
  obtain ⟨hfinal, -⟩ := hnext.turn movedPacket.fields
    (checkPacket_primary movedPacket_valid rfl (SignalPipeline.tieTime.plus 2000000) tieTime_aware) rfl
    (by decide) fun tick hfields => by
      rw [mergeFields_of_fields movedPacket tick hfields]
      decide
  rw [← hlast] at hfinal
  obtain ⟨tick, htick, hsegment, -, -, hfields, hdepth⟩ := hticking.tick
  obtain ⟨tick', htick', -, -, -, hfields', hdepth'⟩ := hnext.tick
  refine ⟨⟨hfirst, ?_, ?_, by simp⟩, ⟨hticking.published.1, ?_, by simp, ?_⟩, ⟨hnext.published.2, ?_, ?_, by simp⟩,
    hfinal⟩
  · rw [hticks]
    simp
  · rw [hticks]
    simp
  · intro cached hcached
    cases htick.symm.trans hcached
    exact .inl hsegment
  · decide
  · intro cached hcached
    cases htick'.symm.trans hcached
    rw [hfields', hdepth']
    exact .inr (by decide)
  · intro _ cached hcached
    cases htick'.symm.trans hcached
    rw [hfields']
    decide

theorem coherentRun_moved : CoherentRun asciiTables 2 movedCalls := by
  intro before call rest hsplit checked hchecked observedAt _
  have hcall : movedCalls[before.length]? = some call := by simp [hsplit]
  have hbefore : before = movedCalls.take before.length := by rw [hsplit, List.take_left]
  have hlength : before.length < 5 := (List.getElem?_eq_some_iff.mp hcall).1
  obtain ⟨hfull, hoi, hmoved, -⟩ := run_moved
  have hpublish (snapshot : AtomicSnapshot) (report : Ingestion.ValidationReport) :
      checked ∉ (Call.publish snapshot report none).checked := fun h => by cases h
  have hpacket {packet : DhanFeedPacket} {clock : Datetime} {checked' : CheckedPacket}
      (hvalid : checkPacket packet none clock = .ok (some checked'))
      (h : checked ∈ (Call.publishFeedTick packet none clock).checked) : checked = checked' := by
    rw [Call.checked, hvalid] at h
    exact (Option.some.inj h).symm
  rw [hbefore]
  generalize before.length = n at hcall hlength ⊢
  obtain rfl | rfl | rfl | rfl | rfl : n = 0 ∨ n = 1 ∨ n = 2 ∨ n = 3 ∨ n = 4 := by omega
  all_goals obtain rfl := Option.some.inj hcall
  · exact absurd hchecked (hpublish _ _)
  · exact absurd hchecked (hpublish _ _)
  · rw [hpacket (checkPacket_primary fullPacket_valid rfl SignalPipeline.tieTime tieTime_aware) hchecked]
    exact hfull
  · rw [hpacket checkPacket_oi hchecked]
    exact hoi
  · rw [hpacket (checkPacket_primary movedPacket_valid rfl (SignalPipeline.tieTime.plus 2000000) tieTime_aware) hchecked]
    exact hmoved

/-- The theorem for the run in which the exchanges take turns. -/
theorem latestFeedTick_moved :
    ∃ view, (runCalls asciiTables (.new 2) movedCalls).latestFeedTick DEFAULT_STRATEGY_CONFIG "13" none
        SignalPipeline.tieTime = .ok (some view) ∧
      ∃ observedAt : Datetime, view.observedAt = observedAt.isoformat ∧
        DescribesOne (FeedHistory.run asciiTables 2 movedCalls) (view.exchangeSegmentCode, view.securityId) observedAt
          view.fields view.depth := by
  obtain ⟨-, -, -, hticking⟩ := run_moved
  obtain ⟨tick, htick, -, -, -, hfields, hdepth⟩ := hticking.tick
  rw [FeedHistory.run_store] at htick
  have hcomplete (fresh : Bool) : completeQuote fresh tick.fields (tick.depth.head?.map DhanDepthLevel.bidPrice)
      (tick.depth.head?.map DhanDepthLevel.askPrice) = .ok false := by
    rw [hfields, hdepth]
    cases fresh <;> decide +kernel
  obtain ⟨view, hview, -⟩ := latestFeedTick_cached DEFAULT_STRATEGY_CONFIG (by decide) tieTime_aware htick hcomplete
  exact ⟨view, hview, latestFeedTick_describesOne asciiTables 2 movedCalls coherentRun_moved movedCalls []
    (List.append_nil _).symm DEFAULT_STRATEGY_CONFIG "13" none SignalPipeline.tieTime view hview⟩

end TecoQuant.Api
