import Mathlib.Data.Prod.Lex
import TecoQuant.BaseDict
import TecoQuant.SignalPipeline

/-! The market read model: published workspaces, feed ticks, and the revision that counts both. Every
method holds the store's lock for its whole effect, so a call is one step on the store; a call that raises
leaves the store as it was. -/

namespace TecoQuant.Api

open Domain Ingestion Signal

/-- What the store raises. -/
inductive Fault where
  | valueError (message : String)
  | runtimeError (message : String)
  | overflowError (message : String)
  | typeError (message : String)
  deriving DecidableEq, Repr

def dateOverflow : Fault := .overflowError "date value out of range"

def requireAware (t : Datetime) (name : String) : Except Fault Datetime :=
  if t.Aware then .ok t else .error (.valueError (name ++ " must be timezone-aware"))

/-- The Unicode tables of `str.upper` and `str.isalnum`. -/
structure CharTables where
  upper : Char → List Char
  isAlnum : Char → Bool

/-- `text.strip().upper()`. -/
def CharTables.normalize (tables : CharTables) (text : String) : String :=
  String.ofList ((PyText.stripChars text.toList).flatMap tables.upper)

def requiredIdentifier (tables : CharTables) (text name : String) : Except Fault String :=
  if PyText.Blank text then .error (.valueError (name ++ " is required")) else .ok (tables.normalize text)

/-! ### Workspaces -/

structure SelectionKey where
  marketId : String
  symbol : String
  expiry : String
  deriving DecidableEq, Repr

structure PublishedSnapshot where
  key : SelectionKey
  snapshot : AtomicSnapshot
  report : ValidationReport
  analysis : Option SignalPipelineResult

/-- The order of the ordering keys, from the computable order of the integers. -/
instance orderingKeyOrder : Preorder (Int ×ₗ Int ×ₗ Int) := (Prod.Lex.instLinearOrder Int (Int ×ₗ Int)).toPreorder

/-- Source instant, sequence, reception instant; compared in this order. -/
def PublishedSnapshot.order (publication : PublishedSnapshot) : Int ×ₗ Int ×ₗ Int :=
  toLex (publication.snapshot.sourceTimestamp.instant,
    toLex (publication.snapshot.sequence, publication.snapshot.receivedAt.instant))

/-- The ordering key, for which both timestamps are read in UTC. -/
def PublishedSnapshot.orderingKey (publication : PublishedSnapshot) : Except Fault (Int ×ₗ Int ×ₗ Int) := do
  let source ← publication.snapshot.sourceTimestamp.astimezone dateOverflow
  let received ← publication.snapshot.receivedAt.astimezone dateOverflow
  return toLex (source.instant, toLex (publication.snapshot.sequence, received.instant))

/-- The calendar holds both timestamps in UTC. -/
def PublishedSnapshot.Dated (publication : PublishedSnapshot) : Prop :=
  publication.snapshot.sourceTimestamp.toUtc.InCalendar ∧ publication.snapshot.receivedAt.toUtc.InCalendar

instance (publication : PublishedSnapshot) : Decidable publication.Dated := inferInstanceAs (Decidable (_ ∧ _))

theorem PublishedSnapshot.orderingKey_eq_ok {publication : PublishedSnapshot} {key : Int ×ₗ Int ×ₗ Int} :
    publication.orderingKey = .ok key ↔ publication.Dated ∧ publication.order = key := by
  simp only [orderingKey, Except.bind_eq_ok, Datetime.astimezone_eq_ok, Dated, order, pure, Except.pure,
    Except.ok.injEq]
  constructor
  · rintro ⟨_, ⟨hsource, rfl⟩, _, ⟨hreceived, rfl⟩, rfl⟩
    exact ⟨⟨hsource, hreceived⟩, by simp⟩
  · rintro ⟨⟨hsource, hreceived⟩, rfl⟩
    exact ⟨_, ⟨hsource, rfl⟩, _, ⟨hreceived, rfl⟩, by simp⟩

def marketId (tables : CharTables) (snapshot : AtomicSnapshot) : String :=
  let contract := snapshot.contract
  let compactSymbol := String.ofList
    ((tables.normalize contract.underlying.symbol).toList.filter tables.isAlnum)
  match contract.marketKind with
  | .commodity => "MCX"
  | .stock => "STOCK_FNO"
  | .index =>
      if compactSymbol ∈ ["NIFTY", "NIFTY50"] then "NIFTY"
      else if compactSymbol ∈ ["BANKNIFTY", "NIFTYBANK"] then "BANKNIFTY"
      else if compactSymbol ∈ ["SENSEX", "SPBSESENSEX"] then "SENSEX"
      else if compactSymbol = "" then "INDEX"
      else compactSymbol

/-- The symbol the metadata selects, or the one of the underlying. -/
def selectionSymbol (snapshot : AtomicSnapshot) : String :=
  match snapshot.metadata.lookup "selection_symbol" with
  | some (.string symbol) => symbol
  | _ => snapshot.contract.underlying.symbol

def selectionKey (tables : CharTables) (snapshot : AtomicSnapshot) : Except Fault SelectionKey := do
  let symbol ← requiredIdentifier tables (selectionSymbol snapshot) "selection symbol"
  return ⟨marketId tables snapshot, symbol, snapshot.contract.optionExpiry.isoformat⟩

/-- The report and the analysis are about the snapshot. -/
structure PublishedSnapshot.Bound (publication : PublishedSnapshot) : Prop where
  snapshotId : publication.report.snapshotId = some publication.snapshot.snapshotId
  snapshotHash : publication.report.snapshotHash = some (contentHash publication.snapshot)
  analysis : ∀ result ∈ publication.analysis, result.snapshotId = publication.snapshot.snapshotId
  tradePlan : ∀ result ∈ publication.analysis, ∀ plan ∈ result.tradePlan,
    plan.snapshotId = publication.snapshot.snapshotId

/-- The checks before the lock, and what is published. -/
def publication (tables : CharTables) (snapshot : AtomicSnapshot) (report : ValidationReport)
    (analysis : Option SignalPipelineResult) : Except Fault PublishedSnapshot := do
  let _ ← requireAware snapshot.sourceTimestamp "snapshot source timestamp"
  let _ ← requireAware snapshot.receivedAt "snapshot received timestamp"
  if report.snapshotId ≠ some snapshot.snapshotId ∨ report.snapshotHash ≠ some (contentHash snapshot) then
    .error (.valueError "validation report is not bound to the published snapshot")
  else do
    checkAnalysis
    let key ← selectionKey tables snapshot
    return ⟨key, snapshot, report, analysis⟩
where
  /-- The analysis, when there is one. -/
  checkAnalysis : Except Fault Unit :=
    match analysis with
    | none => .ok ()
    | some result =>
        if result.snapshotId ≠ snapshot.snapshotId then
          .error (.valueError "analysis is not bound to the published snapshot")
        else do
          let _ ← requireAware result.generatedAt "analysis generation timestamp"
          if ∃ plan ∈ result.tradePlan, plan.snapshotId ≠ snapshot.snapshotId then
            .error (.valueError "analysis trade plan is not bound to the published snapshot")
          else .ok ()

/-! ### Feed ticks -/

/-- A number of a feed packet. -/
inductive FieldValue where
  | int (n : Int)
  | float (x : Binary64)
  | bool (b : Bool)
  deriving DecidableEq, Repr

structure DhanDepthLevel where
  bidQuantity : FieldValue
  askQuantity : FieldValue
  bidOrders : FieldValue
  askOrders : FieldValue
  bidPrice : FieldValue
  askPrice : FieldValue
  deriving DecidableEq, Repr

structure DhanFeedPacket where
  responseCode : Int
  exchangeSegmentCode : Int
  securityId : String
  fields : List (String × FieldValue)
  depth : List DhanDepthLevel

structure FeedTick where
  securityId : String
  exchangeSegmentCode : Int
  responseCode : Int
  receivedAt : Datetime
  observedAt : Datetime
  fields : List (String × FieldValue)
  depth : List DhanDepthLevel
  revision : Nat
  deriving DecidableEq, Repr

/-- `float(n)`. -/
def floatOfInt (n : Int) : Except Fault Binary64 :=
  let x := Binary64.round false n
  if x.IsFinite then .ok x else .error (.overflowError "int too large to convert to float")

/-- The value as a float, unless it is a bool or not finite. -/
def FieldValue.finite : FieldValue → Except Fault (Option Binary64)
  | .int n => some <$> floatOfInt n
  | .float x => .ok (if x.IsFinite then some x else none)
  | .bool _ => .ok none

/-- Some value is no finite number. -/
def rejected : List FieldValue → Except Fault Bool
  | [] => .ok false
  | value :: values => do
      match ← value.finite with
      | none => return true
      | some _ => rejected values

/-- `datetime.fromtimestamp(epoch, tz=UTC)` of a positive number, unless it is past the calendar. -/
def fromTimestamp (epoch : Binary64) : Option Datetime :=
  let moment := Datetime.utc (Binary64.roundHalfEven (epoch.toRat * 1000000))
  if moment.InCalendar then some moment else none

def feedObservedAt (packet : DhanFeedPacket) : Except Fault (Option Datetime) :=
  match packet.fields.lookup "last_trade_epoch" with
  | none => .ok none
  | some value => do
      match ← value.finite with
      | none => return none
      | some epoch => return if epoch ≤ 0 then none else fromTimestamp epoch

/-- Some value of a depth level is no finite number, or negative. -/
def depthInvalid : List FieldValue → Except Fault Bool
  | [] => .ok false
  | value :: values => do
      match ← value.finite with
      | none => return true
      | some x => if x < 0 then return true else depthInvalid values

def feedDepthPayload (level : DhanDepthLevel) : Except Fault DhanDepthLevel := do
  if ← depthInvalid [level.bidQuantity, level.askQuantity, level.bidOrders, level.askOrders,
      level.bidPrice, level.askPrice] then
    .error (.valueError "feed depth contains an invalid numeric value")
  else return level

/-- A packet past the checks before the lock. -/
structure CheckedPacket where
  packet : DhanFeedPacket
  checkTime : Datetime
  primaryPrice : Bool
  depth : List DhanDepthLevel

/-- `value or self._clock()`, when aware. -/
def checkTime (value : Option Datetime) (clock : Datetime) : Except Fault Datetime :=
  requireAware (value.getD clock) "read-model evaluation time"

/-- The checks before the lock; `none` when the packet is refused. -/
def checkPacket (packet : DhanFeedPacket) (receivedAt : Option Datetime) (clock : Datetime) :
    Except Fault (Option CheckedPacket) :=
  if packet.responseCode ∈ [7, 50] ∨ packet.securityId = "" then .ok none
  else do
    if ← rejected (packet.fields.map Prod.snd) then return none
    else
      let checkTime ← checkTime receivedAt clock
      let primaryPrice := decide (packet.responseCode ∈ [2, 4, 8])
      let untraded ← if primaryPrice then Option.isNone <$> feedObservedAt packet else .ok false
      if untraded then return none
      else
        let depth ← packet.depth.mapM feedDepthPayload
        return some ⟨packet, checkTime, primaryPrice, depth⟩

/-! ### The store -/

structure MarketReadModelEvent where
  revision : Nat
  eventType : String
  occurredAt : Datetime
  marketId : Option String
  symbol : Option String
  expiry : Option String
  snapshotId : Option String
  securityId : Option String
  deriving DecidableEq, Repr

structure MarketReadModelStore where
  maximumTickInstruments : Nat
  latest : List (SelectionKey × PublishedSnapshot)
  ticks : List (String × FeedTick)
  revision : Nat
  latestEvent : Option MarketReadModelEvent
  closed : Bool

namespace MarketReadModelStore

/-- A new store. -/
def new (maximumTickInstruments : Nat) : MarketReadModelStore where
  maximumTickInstruments := maximumTickInstruments
  latest := []
  ticks := []
  revision := 0
  latestEvent := none
  closed := false

/-- The publication is no later than the one its key has. -/
def delayed (store : MarketReadModelStore) (publication : PublishedSnapshot) : Except Fault Bool :=
  match store.latest.lookup publication.key with
  | none => .ok false
  | some current => do return decide ((← publication.orderingKey) ≤ (← current.orderingKey))

/-- The promotion of a publication under the lock. -/
def promote (store : MarketReadModelStore) (publication : PublishedSnapshot) :
    Except Fault (Bool × MarketReadModelStore) :=
  if store.closed then .error (.runtimeError "market read model is closed")
  else do
    if ← store.delayed publication then return (false, store)
    else
      return (true, { store with
        latest := Dict.assign publication.key publication store.latest
        revision := store.revision + 1
        latestEvent := some {
          revision := store.revision + 1
          eventType := "WORKSPACE"
          occurredAt := publication.snapshot.receivedAt
          marketId := some publication.key.marketId
          symbol := some publication.key.symbol
          expiry := some publication.key.expiry
          snapshotId := some publication.snapshot.snapshotId
          securityId := none } })

def publish (tables : CharTables) (store : MarketReadModelStore) (snapshot : AtomicSnapshot)
    (report : ValidationReport) (analysis : Option SignalPipelineResult) :
    Except Fault (Bool × MarketReadModelStore) := do
  store.promote (← publication tables snapshot report analysis)

/-- The security ids of a published contract. -/
def knownSecurityIds (store : MarketReadModelStore) : List String :=
  store.latest.flatMap fun (_, publication) =>
    let contract := publication.snapshot.contract
    contract.underlying.securityId ::
      (contract.futures.map (·.instrument.securityId)).toList ++
      contract.optionContracts.map (·.instrument.securityId)

/-- The fields of a tick after a packet, in the order of their names. -/
def mergeFields (current : Option FeedTick) (packet : DhanFeedPacket) : List (String × FieldValue) :=
  let merged := packet.fields.foldl (fun fields (name, value) => Dict.assign name value fields)
    ((current.map FeedTick.fields).getD [])
  merged.insertionSort fun left right => left.1 ≤ right.1

/-- When the tick observes the market, if the packet may change the cache. -/
def selectedObservedAt (current : Option FeedTick) (checked : CheckedPacket) : Option Datetime :=
  if checked.primaryPrice then
    if ∃ tick ∈ current, checked.checkTime.instant ≤ tick.observedAt.instant then none
    else some checked.checkTime
  else current.map FeedTick.observedAt

/-- The merge of a checked packet under the lock. -/
def mergeTick (store : MarketReadModelStore) (checked : CheckedPacket) : Bool × MarketReadModelStore :=
  let packet := checked.packet
  if store.closed then (false, store)
  else if packet.securityId ∉ store.knownSecurityIds then (false, store)
  else
    let current := store.ticks.lookup packet.securityId
    match selectedObservedAt current checked with
    | none => (false, store)
    | some observedAt =>
        if current = none ∧ store.maximumTickInstruments ≤ store.ticks.length then (false, store)
        else
          let tick : FeedTick := {
            securityId := packet.securityId
            exchangeSegmentCode := packet.exchangeSegmentCode
            responseCode := packet.responseCode
            receivedAt := checked.checkTime
            observedAt := observedAt
            fields := mergeFields current packet
            depth := if checked.depth = [] then (current.map FeedTick.depth).getD [] else checked.depth
            revision := store.revision + 1 }
          (true, { store with
            ticks := Dict.assign packet.securityId tick store.ticks
            revision := store.revision + 1
            latestEvent := some {
              revision := store.revision + 1
              eventType := "FEED_TICK"
              occurredAt := checked.checkTime
              marketId := none
              symbol := none
              expiry := none
              snapshotId := none
              securityId := some packet.securityId } })

def publishFeedTick (store : MarketReadModelStore) (packet : DhanFeedPacket) (receivedAt : Option Datetime)
    (clock : Datetime) : Except Fault (Bool × MarketReadModelStore) := do
  match ← checkPacket packet receivedAt clock with
  | none => return (false, store)
  | some checked => return store.mergeTick checked

def close (store : MarketReadModelStore) : MarketReadModelStore := { store with closed := true }

/-- What a wait for a revision after `after` returns when it ends. -/
def waitResult (store : MarketReadModelStore) (after : Nat) : Option MarketReadModelEvent :=
  if store.closed ∨ store.revision ≤ after then none else store.latestEvent

/-- The workspaces a selection chooses from, for normalized names and expiry. -/
def candidates (store : MarketReadModelStore) (marketId symbol : String) (expiry : Option String) :
    List PublishedSnapshot :=
  let named := (store.latest.filter fun (key, _) => key.marketId = marketId ∧ key.symbol = symbol).map Prod.snd
  match expiry with
  | none => named
  | some expiry => named.filter fun item => item.key.expiry = expiry ∨
      item.snapshot.contract.optionExpiry.dateText = expiry

/-- The workspace a selection resolves to: the latest of those it chooses from, the first of equals. -/
def resolve (store : MarketReadModelStore) (marketId symbol : String) (expiry : Option String) :
    Except Fault (Option PublishedSnapshot) := do
  let candidates := store.candidates marketId symbol expiry
  let _ ← candidates.mapM PublishedSnapshot.orderingKey
  return candidates.argmax PublishedSnapshot.order

end MarketReadModelStore

end TecoQuant.Api
