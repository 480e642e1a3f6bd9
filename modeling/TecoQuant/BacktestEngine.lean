import TecoQuant.BacktestMetrics

/-! The replay engine on moments without bounds, which a replay that returns follows; the code's own, which raises where
a moment leaves the calendar, is built on it. The dictionary of open positions is the list of its values in the order of
their instrument ids, which is the order every pass over it takes; a pass returns what it leaves open, closes and
journals. -/

namespace TecoQuant.Backtest

structure OpenPosition where
  signal : BacktestSignal
  entryTime : Datetime
  entryPrice : ℚ
  entryAsk : ℚ
  quantity : Nat
  remainingQuantity : Nat
  entryCosts : CostBreakdown
  entrySlippage : ℚ
  exitQuantity : Nat
  exitNotional : ℚ
  exitCosts : CostBreakdown
  exitSlippage : ℚ
  exitReason : Option ExitReason
  lastExitTime : Option Datetime
  lastExitAttempt : Option Datetime

/-- What a pass over open positions leaves open, closes and journals. -/
structure ExitPass where
  positions : List OpenPosition
  trades : List Trade
  journal : List JournalEntry

/-- What a pass over pending signals leaves pending, has open and journals. -/
structure PendingPass where
  stillPending : List BacktestSignal
  positions : List OpenPosition
  journal : List JournalEntry

structure ReplayState where
  pending : List BacktestSignal
  positions : List OpenPosition
  trades : List Trade
  journal : List JournalEntry
  latestBars : String → Option OptionBar

def ReplayState.initial : ReplayState := ⟨[], [], [], [], fun _ => none⟩

structure BacktestReport where
  startedAt : Datetime
  endedAt : Datetime
  initialCapital : ℚ
  endingCapital : ℚ
  trades : List Trade
  journal : List JournalEntry
  metrics : BacktestMetrics
  breakdowns : List (String × List (String × BreakdownMetrics))
  openPositions : List OpenPositionSummary
  deriving DecidableEq

/-- The bar of an instrument in a frame. -/
def ReplayFrame.bar (frame : ReplayFrame) (instrumentId : String) : Option OptionBar :=
  frame.bars.find? (·.instrumentId = instrumentId)

/-- A journal entry about a signal, without a quantity. -/
def BacktestSignal.note (signal : BacktestSignal) (timestamp : Datetime) (event : JournalEvent)
    (message : String) : JournalEntry :=
  ⟨timestamp, event, signal.signalId, signal.instrumentId, message, 0, none⟩

section

variable (ctx : DecimalContext) (config : BacktestConfig)

def orderCosts (price : ℚ) (quantity : Nat) (isEntry : Bool) : CostBreakdown :=
  let notional := ctx.mul price quantity
  let costs := config.costs
  let transaction := ctx.mul notional costs.transactionFeeRate
  let regulatory := ctx.mul notional costs.regulatoryFeeRate
  let taxes := ctx.mul notional (if isEntry then costs.entryTaxRate else costs.exitTaxRate)
  let brokerage := costs.brokeragePerOrder
  let gst := ctx.mul (ctx.add (ctx.add brokerage transaction) regulatory) costs.gstRate
  ⟨brokerage, taxes, transaction, regulatory, gst⟩

/-- The entry price and the adverse move in it. -/
def entryPrice (bar : OptionBar) : ℚ × ℚ :=
  let adverse := ctx.add (ctx.round (ctx.mul bar.ask config.slippage.entryBps / 10000))
    config.slippage.fixedEntryPerUnit
  (ctx.add bar.ask adverse, adverse)

/-- The exit price and the adverse move in it. -/
def exitPrice (bar : OptionBar) : ℚ × ℚ :=
  let adverse := ctx.add (ctx.round (ctx.mul bar.bid config.slippage.exitBps / 10000))
    config.slippage.fixedExitPerUnit
  let price := max 0 (ctx.sub bar.bid adverse)
  (price, ctx.sub bar.bid price)

/-- The whole contracts of the displayed depth that the configuration takes part in. -/
def participating (visible : Nat) : Nat :=
  ⌊ctx.mul visible config.partialFills.maximumParticipationRate⌋₊

def fillableQuantity (requested : Nat) (visible : Option Nat) (lotSize : Nat) : Nat :=
  if config.partialFills.enabled then
    match visible with
    | none => 0
    | some visible => min requested (participating ctx config visible / lotSize * lotSize)
  else requested

/-- A stop and a target in one bar resolve as the stop. -/
def exitTrigger (position : OpenPosition) (bar : OptionBar) : Option ExitReason :=
  if bar.low ≤ position.signal.stopPrice then some .stop
  else if position.signal.targetPrice ≤ bar.high then some .target
  else if position.signal.contractExpiry.instant ≤ bar.timestamp.instant then some .expiry
  else
    match position.signal.maxHolding with
    | none => none
    | some maxHolding =>
        if (position.entryTime.plus maxHolding).instant ≤ bar.timestamp.instant then some .time else none

/-! ### Exits -/

/-- The position after an attempt to exit it. -/
def OpenPosition.attempted (position : OpenPosition) (bar : OptionBar) (reason : ExitReason) :
    OpenPosition :=
  { position with
    exitReason := some (position.exitReason.getD reason)
    lastExitAttempt := some bar.timestamp }

/-- The position after an exit fill. -/
def OpenPosition.filled (position : OpenPosition) (bar : OptionBar) (quantity : Nat) : OpenPosition :=
  let price := (exitPrice ctx config bar).1
  let adverse := (exitPrice ctx config bar).2
  { position with
    remainingQuantity := position.remainingQuantity - quantity
    exitQuantity := position.exitQuantity + quantity
    exitNotional := ctx.add position.exitNotional (ctx.mul price quantity)
    exitCosts := position.exitCosts.add ctx (orderCosts ctx config price quantity false)
    exitSlippage := ctx.add position.exitSlippage (ctx.mul adverse quantity)
    lastExitTime := some bar.timestamp }

/-- The trade of a position without a remaining quantity. -/
def closeTrade (position : OpenPosition) (bar : OptionBar) (reason : ExitReason) : Except Fault Trade := do
  let exitPrice ← divide ctx position.exitNotional position.exitQuantity
  let grossPnl := ctx.mul (ctx.sub exitPrice position.entryPrice) position.quantity
  let totalCosts := ctx.add (position.entryCosts.total ctx) (position.exitCosts.total ctx)
  let netPnl := ctx.sub grossPnl totalCosts
  let initialRisk := ctx.mul (ctx.sub position.entryPrice position.signal.stopPrice) position.quantity
  let lots ← divide ctx position.quantity position.signal.lotSize
  let rMultiple ← divide ctx netPnl initialRisk
  let exitTime := position.lastExitTime.getD bar.timestamp
  return {
    signalId := position.signal.signalId
    instrumentId := position.signal.instrumentId
    optionSide := position.signal.optionSide
    entryTime := position.entryTime
    exitTime := exitTime
    entryPrice := position.entryPrice
    exitPrice := exitPrice
    quantity := position.quantity
    lots := lots
    stopPrice := position.signal.stopPrice
    targetPrice := position.signal.targetPrice
    exitReason := reason
    entryCosts := position.entryCosts
    exitCosts := position.exitCosts
    grossPnl := grossPnl
    netPnl := netPnl
    initialRisk := initialRisk
    rMultiple := rMultiple
    slippageCost := ctx.add position.entrySlippage position.exitSlippage
    holdingSeconds := exitTime.secondsSince position.entryTime
    score := position.signal.score
    scoreBand := position.signal.scoreBand
    market := position.signal.market
    expiryBucket := position.signal.expiryBucket
    moneyness := position.signal.moneyness
    timeBucket := position.signal.timeBucket
    volatilityBucket := position.signal.volatilityBucket
    regime := position.signal.regime }

/-- The journal entry of a fill. -/
def exitFillEntry (position : OpenPosition) (bar : OptionBar) (reason : ExitReason) (quantity : Nat) :
    JournalEntry where
  timestamp := bar.timestamp
  event := .exitFill
  signalId := position.signal.signalId
  instrumentId := position.signal.instrumentId
  message := reason.value ++ " exit fill"
  quantity := quantity
  price := some (exitPrice ctx config bar).1

/-- The journal entry of a closed trade. -/
def exitEntry (trade : Trade) : JournalEntry where
  timestamp := trade.exitTime
  event := .exit
  signalId := trade.signalId
  instrumentId := trade.instrumentId
  message := "trade closed: " ++ trade.exitReason.value
  quantity := trade.quantity
  price := some trade.exitPrice

def executeExit (position : OpenPosition) (bar : OptionBar) (reason : ExitReason) :
    Except Fault ExitPass := do
  let actualReason := position.exitReason.getD reason
  let attempted := position.attempted bar reason
  let quantity := fillableQuantity ctx config position.remainingQuantity bar.bidQuantity
    position.signal.lotSize
  if quantity = 0 then
    return ⟨[attempted], [], [position.signal.note bar.timestamp .unfilled
      "exit pending: no whole lot within configured bid participation"]⟩
  else
    let filled := attempted.filled ctx config bar quantity
    let fill := exitFillEntry ctx config position bar actualReason quantity
    if 0 < filled.remainingQuantity then return ⟨[filled], [], [fill]⟩
    else
      let trade ← closeTrade ctx filled bar actualReason
      return ⟨[], [trade], [fill, exitEntry trade]⟩

/-- Attempt an exit of each position in turn. -/
def exitPass (attempt : OpenPosition → Except Fault ExitPass) : List OpenPosition → Except Fault ExitPass
  | [] => .ok ⟨[], [], []⟩
  | position :: positions => do
      let first ← attempt position
      let rest ← exitPass attempt positions
      return ⟨first.positions ++ rest.positions, first.trades ++ rest.trades, first.journal ++ rest.journal⟩

/-- An exit inside the replay: the position sees the bar of this frame. -/
def attemptExit (bar? : String → Option OptionBar) (position : OpenPosition) : Except Fault ExitPass :=
  match bar? position.signal.instrumentId with
  | none => .ok ⟨[position], [], []⟩
  | some bar =>
      match position.exitReason <|> exitTrigger position bar with
      | none => .ok ⟨[position], [], []⟩
      | some reason => executeExit ctx config position bar reason

/-- The end-of-data liquidation: the position sees the latest bar of its instrument. -/
def liquidate (bar? : String → Option OptionBar) (position : OpenPosition) : Except Fault ExitPass :=
  match bar? position.signal.instrumentId with
  | none => .ok ⟨[position], [], []⟩
  | some bar =>
      if bar.timestamp.instant < position.entryTime.instant then .ok ⟨[position], [], []⟩
      else if position.lastExitAttempt.map Datetime.instant = some bar.timestamp.instant then
        .ok ⟨[position], [], []⟩
      else executeExit ctx config position bar (position.exitReason.getD .endOfData)

/-! ### Entries -/

/-- The position a signal opens. -/
def openPosition (signal : BacktestSignal) (frame : ReplayFrame) (bar : OptionBar) (quantity : Nat) :
    OpenPosition where
  signal := signal
  entryTime := frame.timestamp
  entryPrice := (entryPrice ctx config bar).1
  entryAsk := bar.ask
  quantity := quantity
  remainingQuantity := quantity
  entryCosts := orderCosts ctx config (entryPrice ctx config bar).1 quantity true
  entrySlippage := ctx.mul (entryPrice ctx config bar).2 quantity
  exitQuantity := 0
  exitNotional := 0
  exitCosts := .zero
  exitSlippage := 0
  exitReason := none
  lastExitTime := none
  lastExitAttempt := none

/-- The journal entry of an entry. -/
def entryEntry (signal : BacktestSignal) (frame : ReplayFrame) (bar : OptionBar) (quantity : Nat) :
    JournalEntry where
  timestamp := frame.timestamp
  event := .entry
  signalId := signal.signalId
  instrumentId := signal.instrumentId
  message :=
    if quantity < signal.requestedQuantity then "partial entry fill; unfilled remainder cancelled"
    else "entry filled"
  quantity := quantity
  price := some (entryPrice ctx config bar).1

/-- `positions[instrument_id] = position`, for an instrument without a position. -/
def insertPosition (position : OpenPosition) (positions : List OpenPosition) : List OpenPosition :=
  positions.orderedInsert (fun p q => p.signal.instrumentId ≤ q.signal.instrumentId) position

def skip (signal : BacktestSignal) (frame : ReplayFrame) (positions : List OpenPosition)
    (message : String) : PendingPass :=
  ⟨[], positions, [signal.note frame.timestamp .skipped message]⟩

/-- A signal inside its windows that has a bar. -/
def enterAt (frame : ReplayFrame) (signal : BacktestSignal) (positions : List OpenPosition)
    (bar : OptionBar) : Except Fault PendingPass :=
  let quantity := fillableQuantity ctx config signal.requestedQuantity bar.askQuantity signal.lotSize
  let price := (entryPrice ctx config bar).1
  if ∃ position ∈ positions, position.signal.instrumentId = signal.instrumentId then
    .ok (skip signal frame positions "position already open")
  else if quantity = 0 then
    if config.partialFills.enabled then
      .ok ⟨[signal], positions, [signal.note frame.timestamp .unfilled
        "no whole lot within configured ask participation"]⟩
    else .error (.assertionError "full-fill mode must return the requested quantity")
  else if ¬(signal.stopPrice < price ∧ price < signal.targetPrice) then
    .ok (skip signal frame positions "executable entry is not strictly between stop and target")
  else
    .ok ⟨[], insertPosition (openPosition ctx config signal frame bar quantity) positions,
      [entryEntry ctx config signal frame bar quantity]⟩

/-- One pending signal in a frame. -/
def executeSignal (frame : ReplayFrame) (signal : BacktestSignal) (positions : List OpenPosition) :
    Except Fault PendingPass :=
  if frame.timestamp.instant ≤ signal.generatedAt.instant then .ok ⟨[signal], positions, []⟩
  else if signal.contractExpiry.instant ≤ frame.timestamp.instant then
    .ok (skip signal frame positions "contract expired before entry")
  else if ∃ validUntil ∈ signal.validUntil, validUntil.instant < frame.timestamp.instant then
    .ok (skip signal frame positions "signal validity window elapsed")
  else
    match frame.bar signal.instrumentId with
    | none => .ok ⟨[signal], positions, []⟩
    | some bar => enterAt ctx config frame signal positions bar

def executePending (frame : ReplayFrame) :
    List BacktestSignal → List OpenPosition → Except Fault PendingPass
  | [], positions => .ok ⟨[], positions, []⟩
  | signal :: pending, positions => do
      let first ← executeSignal ctx config frame signal positions
      let rest ← executePending frame pending first.positions
      return ⟨first.stillPending ++ rest.stillPending, rest.positions, first.journal ++ rest.journal⟩

/-! ### The run -/

def replayFrame (s : ReplayState) (frame : ReplayFrame) : Except Fault ReplayState := do
  let exits ← exitPass (attemptExit ctx config frame.bar) s.positions
  let entries ← executePending ctx config frame s.pending exits.positions
  return {
    pending := entries.stillPending ++ frame.signals
    positions := entries.positions
    trades := s.trades ++ exits.trades
    journal := s.journal ++ (exits.journal ++ entries.journal ++ frame.signals.map fun signal =>
      signal.note frame.timestamp .signal "signal queued for the first strictly later quote")
    latestBars := fun instrumentId => frame.bar instrumentId <|> s.latestBars instrumentId }

/-- The loop over the frames. -/
def replayLoop (frames : List ReplayFrame) : Except Fault ReplayState :=
  frames.foldlM (replayFrame ctx config) .initial

def OpenPosition.summary (position : OpenPosition) : OpenPositionSummary where
  signalId := position.signal.signalId
  instrumentId := position.signal.instrumentId
  remainingQuantity := position.remainingQuantity
  entryPrice := position.entryPrice
  lastTimestamp := position.lastExitTime.getD position.entryTime
  pendingExitReason := position.exitReason

/-- Everything after the loop. -/
def finish (startedAt endedAt : Datetime) (s : ReplayState) : Except Fault BacktestReport := do
  let exits ← exitPass (liquidate ctx config s.latestBars) s.positions
  let trades := s.trades ++ exits.trades
  let metrics ← calculateMetrics ctx config.initialCapital startedAt endedAt trades
  let breakdowns ← buildBreakdowns ctx trades
  return {
    startedAt := startedAt
    endedAt := endedAt
    initialCapital := config.initialCapital
    endingCapital := ctx.add config.initialCapital metrics.netPnl
    trades := trades
    journal := s.journal ++ (exits.journal ++ s.pending.map fun signal =>
      signal.note endedAt .unfilled "no later executable quote before the replay ended")
    metrics := metrics
    breakdowns := breakdowns
    openPositions := (exits.positions.insertionSort fun p q => p.signal.signalId ≤ q.signal.signalId).map
      OpenPosition.summary }

end

/-- The signal ids known after the signals of a frame. -/
def addSignalIds : List String → List BacktestSignal → Except Fault (List String)
  | signalIds, [] => .ok signalIds
  | signalIds, signal :: signals =>
      if signal.signalId ∈ signalIds then
        .error (.valueError "signal IDs must be unique throughout a replay")
      else addSignalIds (signal.signalId :: signalIds) signals

def validateFrames : Option Int → List String → List ReplayFrame → Except Fault Unit
  | _, _, [] => .ok ()
  | previous, signalIds, frame :: frames => do
      if ∃ instant ∈ previous, frame.timestamp.instant ≤ instant then
        .error (.valueError "replay frame timestamps must be strictly sorted and unique")
      else
        let signalIds ← addSignalIds signalIds frame.signals
        validateFrames (some frame.timestamp.instant) signalIds frames

def validateSequence (frames : List ReplayFrame) : Except Fault Unit :=
  if frames = [] then .error (.valueError "at least one replay frame is required")
  else validateFrames none [] frames

def run (ctx : DecimalContext) (config : BacktestConfig) (frames : List ReplayFrame) :
    Except Fault BacktestReport := do
  validateSequence frames
  match frames.head?, frames.getLast? with
  | some first, some last => do
      let s ← replayLoop ctx config frames
      finish ctx config first.timestamp last.timestamp s
  | _, _ => .error (.valueError "at least one replay frame is required")

end TecoQuant.Backtest
