import TecoQuant.ExecutionController
import TecoQuant.SignalAdapters
import TecoQuant.SignalService

/-! The automation service: a signal is evaluated, recorded in the history, and its plan submitted to the
execution controller. Over every run the history is written ahead: what is submitted or returned is in it. -/

namespace TecoQuant.Automation

open Domain Strategy Signal Execution Atomic Ingestion

/-! ### The history of evaluations -/

section Serialization

open Serialization

def decisionText : DecisionState → String
  | .buyCall => "BUY_CALL"
  | .buyPut => "BUY_PUT"
  | .wait => "WAIT"
  | .noTrade => "NO_TRADE"
  | .insufficientData => "INSUFFICIENT_DATA"

def reasonText : DecisionReason → String
  | .dataIncomplete => "DATA_INCOMPLETE"
  | .dataStale => "DATA_STALE"
  | .invalidExpiry => "INVALID_EXPIRY"
  | .extremeExpiryRisk => "EXTREME_EXPIRY_RISK"
  | .eventRisk => "EVENT_RISK"
  | .noLiquidStrike => "NO_LIQUID_STRIKE"
  | .notAffordable => "NOT_AFFORDABLE"
  | .belowWatchlistScore => "BELOW_WATCHLIST_SCORE"
  | .watchlistOnly => "WATCHLIST_ONLY"
  | .conflictingScores => "CONFLICTING_SCORES"
  | .priceActionPending => "PRICE_ACTION_PENDING"
  | .quickModeOnly => "QUICK_MODE_ONLY"
  | .bullishConfirmed => "BULLISH_CONFIRMED"
  | .bearishConfirmed => "BEARISH_CONFIRMED"

def floats (fields : List (String × Binary64)) : Json := .object (fields.map fun field => (field.1, .float field.2))

instance : ToJson EvidenceBreakdown := ⟨fun evidence => .object [
  ("factors", floats evidence.factors), ("points", floats evidence.points), ("total", toJson evidence.total)]⟩

instance : ToJson RankedStrike := ⟨fun ranked => .object [
  ("rank", toJson (ranked.rank : Int)), ("security_id", toJson ranked.securityId), ("strike", toJson ranked.strike),
  ("option_type", toJson ranked.optionType), ("entry_ask", toJson ranked.entryAsk), ("score", toJson ranked.score),
  ("evidence", toJson ranked.evidence), ("liquidity_score", toJson ranked.liquidityScore),
  ("eligible", toJson ranked.eligible), ("rejection_reasons", toJson ranked.rejectionReasons)]⟩

instance : ToJson Signal.TradePlan := ⟨fun plan => .object [
  ("signal_id", toJson plan.signalId), ("snapshot_id", toJson plan.snapshotId),
  ("contract_key", toJson plan.contractKey), ("strategy_version", toJson plan.strategyVersion),
  ("evidence_version", toJson plan.evidenceVersion), ("generated_at", toJson plan.generatedAt),
  ("decision", toJson (decisionText plan.decision)), ("actionable", toJson plan.actionable),
  ("symbol", toJson plan.symbol), ("security_id", toJson plan.securityId),
  ("option_type", toJson plan.optionType), ("strike", toJson plan.strike), ("expiry", toJson plan.expiry),
  ("score", toJson plan.score), ("score_gap", toJson plan.scoreGap), ("entry", toJson plan.entry),
  ("stop", toJson plan.stop), ("targets", toJson plan.targets), ("lot_size", toJson plan.lotSize),
  ("lots", toJson plan.lots), ("quantity", toJson plan.quantity), ("maximum_risk", toJson plan.maximumRisk),
  ("risk_per_lot", toJson plan.riskPerLot), ("premium_required", toJson plan.premiumRequired)]⟩

instance : ToJson SignalPipelineResult := ⟨fun result => .object [
  ("snapshot_id", toJson result.snapshotId), ("generated_at", toJson result.generatedAt),
  ("decision", toJson (decisionText result.decision)), ("reason", toJson (reasonText result.reason)),
  ("call_score", toJson result.callScore), ("put_score", toJson result.putScore),
  ("score_gap", toJson result.scoreGap), ("ranked_strikes", toJson result.rankedStrikes),
  ("trade_plan", toJson result.tradePlan), ("warnings", toJson result.warnings)]⟩

end Serialization

structure EvaluationRow where
  evaluationId : String
  snapshotId : String
  generatedAtUtc : String
  generatedAtUs : Int
  decision : String
  reason : String
  callScore : Binary64
  putScore : Binary64
  scoreGap : Binary64
  resultJson : String

/-- `int(utc.timestamp() * 1_000_000)`. -/
def epochMicroseconds (utc : Datetime) : Int :=
  let seconds := Binary64.round false ((utc.instant : ℚ) / 1000000)
  let scaled := (seconds.mul 1000000).toRat
  if scaled < 0 then -⌊-scaled⌋ else ⌊scaled⌋

def evaluationRow (result : SignalPipelineResult) (utc : Datetime) : EvaluationRow where
  evaluationId := "evaluation:" ++ contentHash result
  snapshotId := result.snapshotId
  generatedAtUtc := utc.isoformat
  generatedAtUs := epochMicroseconds utc
  decision := decisionText result.decision
  reason := reasonText result.reason
  callScore := result.callScore
  putScore := result.putScore
  scoreGap := result.scoreGap
  resultJson := Serialization.canonicalJson (ToJson.toJson result)

/-- `INSERT OR IGNORE`: a known id, or a NaN in a NOT NULL column, leaves the table as it is. -/
def insertOrIgnore (row : EvaluationRow) (rows : List EvaluationRow) : List EvaluationRow :=
  if (∃ known ∈ rows, known.evaluationId = row.evaluationId) ∨
      .nan ∈ [row.callScore, row.putScore, row.scoreGap] then rows
  else rows ++ [row]

/-- What leaves the service. -/
inductive Failure where
  | evaluation (fault : ServiceFault)
  | valueError (message : String)
  | overflowError (message : String)
  | adapter (fault : AdapterFault)
  | execution (fault : Execution.Fault)

/-- The checks of `record` before it writes. -/
def recordable (result : SignalPipelineResult) : Except Failure Datetime :=
  if ¬result.generatedAt.Aware then
    .error (.valueError "signal history requires a timezone-aware generated time")
  else result.generatedAt.astimezone (.overflowError "date value out of range")

/-- `record`. -/
def record (result : SignalPipelineResult) (rows : List EvaluationRow) :
    Except Failure Unit × List EvaluationRow :=
  match recordable result with
  | .error failure => (.error failure, rows)
  | .ok utc => (.ok (), insertOrIgnore (evaluationRow result utc) rows)

/-! ### The service -/

structure AutomationRunResult where
  signal : SignalPipelineResult
  execution : Option ExecutionResult
  executionBlockedReason : Option String := none

/-- A signal service: from a snapshot, its report, the previous snapshot and the time. -/
abbrev SignalService :=
  AtomicSnapshot → ValidationReport → Option PreviousOptionSnapshot → Datetime → Except ServiceFault SignalPipelineResult

/-- The execution side: the controller, the world it acts on, and the history. -/
structure ExecutionSide where
  controller : ExecutionController
  world : World
  history : List EvaluationRow

/-- Submit a plan; only a block is taken as an answer. -/
def submitPlan (side : ExecutionSide) (signal : SignalPipelineResult) (plan : Execution.TradePlan) (now : Datetime) :
    Except Failure AutomationRunResult × ExecutionSide :=
  let (outcome, world) := run (perform side.controller.live) (side.controller.submit plan now) side.world
  let side := { side with world := world }
  match outcome with
  | .ok execution => (.ok { signal, execution := some execution }, side)
  | .error fault =>
      if fault.kind = .executionBlocked then
        (.ok { signal, execution := none, executionBlockedReason := some fault.message }, side)
      else (.error (.execution fault), side)

/-- `process`. -/
def process (signals : SignalService) (side : ExecutionSide) (snapshot : AtomicSnapshot)
    (report : ValidationReport) (previous : Option PreviousOptionSnapshot) (now : Datetime) :
    Except Failure AutomationRunResult × ExecutionSide :=
  match signals snapshot report previous now with
  | .error fault => (.error (.evaluation fault), side)
  | .ok signal =>
      let (recorded, history) := record signal side.history
      let side := { side with history := history }
      match recorded with
      | .error failure => (.error failure, side)
      | .ok () =>
          match signal.tradePlan with
          | none => (.ok { signal, execution := none }, side)
          | some plan =>
              if plan.actionable = false then (.ok { signal, execution := none }, side)
              else
                match toExecutionPlan plan snapshot executionValidity executionExpiryBuffer with
                | .error fault => (.error (.adapter fault), side)
                | .ok executionPlan => submitPlan side signal executionPlan now

/-! ### Runs -/

/-- A call to `process`, with the time it is given. -/
structure ProcessCall where
  snapshot : AtomicSnapshot
  report : ValidationReport
  previous : Option PreviousOptionSnapshot
  now : Datetime

namespace ProcessCall

/-- The evaluation that a call records, and its time in UTC. -/
def evaluated (signals : SignalService) (call : ProcessCall) : Option (SignalPipelineResult × Datetime) :=
  (signals call.snapshot call.report call.previous call.now).toOption.bind fun signal =>
    (recordable signal).toOption.map (signal, ·)

/-- What an evaluation hands to the execution controller. -/
def submission (call : ProcessCall) (signal : SignalPipelineResult) : Option Execution.Call :=
  signal.tradePlan.bind fun plan =>
    if plan.actionable = false then none
    else (toExecutionPlan plan call.snapshot executionValidity executionExpiryBuffer).toOption.map (.submit · call.now)

def submitted (signals : SignalService) (call : ProcessCall) : Option Execution.Call :=
  (call.evaluated signals).bind fun evaluation => call.submission evaluation.1

end ProcessCall

/-- The history with an evaluation, if there is one. -/
def recordedIn (rows : List EvaluationRow) : Option (SignalPipelineResult × Datetime) → List EvaluationRow
  | some (signal, utc) => insertOrIgnore (evaluationRow signal utc) rows
  | none => rows

/-- The world after a submission, if there is one. -/
def submittedIn (c : ExecutionController) (w : World) : Option Execution.Call → World
  | some call => c.after w call
  | none => w

/-- What is in the history under an id of its own. -/
def Stored (rows : List EvaluationRow) (signal : SignalPipelineResult) : Prop :=
  .nan ∉ [signal.callScore, signal.putScore, signal.scoreGap] →
    ∃ row ∈ rows, row.evaluationId = "evaluation:" ++ contentHash signal

section Runs

variable {signals : SignalService} {side : ExecutionSide} {rows : List EvaluationRow}

theorem submitPlan_after (side : ExecutionSide) (signal : SignalPipelineResult) (plan : Execution.TradePlan)
    (now : Datetime) :
    (submitPlan side signal plan now).2 =
      { side with world := side.controller.after side.world (.submit plan now) } ∧
    ∀ result, (submitPlan side signal plan now).1 = .ok result → result.signal = signal := by
  unfold submitPlan
  show _ = { side with world := (run (perform side.controller.live) (side.controller.submit plan now) side.world).2 } ∧ _
  rcases run (perform side.controller.live) (side.controller.submit plan now) side.world with ⟨fault | execution, w⟩
  · dsimp only
    split
    · exact ⟨rfl, fun result h => by rw [← Except.ok.inj h]⟩
    · exact ⟨rfl, fun result h => by cases h⟩
  · exact ⟨rfl, fun result h => by rw [← Except.ok.inj h]⟩

/-- One call records its evaluation, then submits its plan; what it returns has been recorded. -/
theorem process_step (call : ProcessCall) :
    (process signals side call.snapshot call.report call.previous call.now).2 =
      { side with
        history := recordedIn side.history (call.evaluated signals)
        world := submittedIn side.controller side.world (call.submitted signals) } ∧
    ∀ result, (process signals side call.snapshot call.report call.previous call.now).1 = .ok result →
      ∃ utc, call.evaluated signals = some (result.signal, utc) := by
  unfold process ProcessCall.submitted ProcessCall.evaluated
  rcases signals call.snapshot call.report call.previous call.now with fault | signal
  · exact ⟨rfl, fun result h => by cases h⟩
  simp only [record, Except.toOption, Option.bind_some]
  rcases recordable signal with failure | utc
  · exact ⟨rfl, fun result h => by cases h⟩
  have hreturned : ∀ result : AutomationRunResult, result.signal = signal →
      ∃ later, some (signal, utc) = some (result.signal, later) := fun result h => ⟨utc, by rw [h]⟩
  simp only [Option.map_some, Option.bind_some, ProcessCall.submission]
  rcases signal.tradePlan with _ | plan
  · exact ⟨rfl, fun result h => hreturned result (by rw [← Except.ok.inj h])⟩
  simp only [Option.bind_some]
  by_cases hactionable : plan.actionable = false
  · rw [if_pos hactionable, if_pos hactionable]
    exact ⟨rfl, fun result h => hreturned result (by rw [← Except.ok.inj h])⟩
  rw [if_neg hactionable, if_neg hactionable]
  rcases toExecutionPlan plan call.snapshot executionValidity executionExpiryBuffer with fault | executionPlan
  · exact ⟨rfl, fun result h => by cases h⟩
  obtain ⟨hside, hresult⟩ := submitPlan_after
    { side with history := insertOrIgnore (evaluationRow signal utc) side.history } signal executionPlan call.now
  exact ⟨hside, fun result h => hreturned result (hresult result h)⟩

/-! ### The history -/

theorem insertOrIgnore_grows (row : EvaluationRow) : rows <+: insertOrIgnore row rows := by
  unfold insertOrIgnore
  split
  · exact List.prefix_refl rows
  · exact List.prefix_append rows [row]

theorem insertOrIgnore_nodup (row : EvaluationRow) (h : (rows.map EvaluationRow.evaluationId).Nodup) :
    ((insertOrIgnore row rows).map EvaluationRow.evaluationId).Nodup := by
  unfold insertOrIgnore
  split
  · exact h
  · rename_i hnew
    rw [List.map_append, List.map_singleton, ← List.concat_eq_append]
    refine List.Nodup.concat (fun hknown => ?_) h
    obtain ⟨known, hmem, hid⟩ := List.mem_map.mp hknown
    exact hnew (.inl ⟨known, hmem, hid⟩)

theorem insertOrIgnore_stored (signal : SignalPipelineResult) (utc : Datetime) :
    Stored (insertOrIgnore (evaluationRow signal utc) rows) signal := by
  intro hscores
  unfold insertOrIgnore
  split
  · rename_i hignored
    exact hignored.resolve_right hscores
  · exact ⟨evaluationRow signal utc, List.mem_append_right _ (List.mem_singleton_self _), rfl⟩

theorem Stored.mono {later : List EvaluationRow} (hgrows : rows <+: later) {signal : SignalPipelineResult}
    (h : Stored rows signal) : Stored later signal := fun hscores => by
  obtain ⟨row, hrow, hid⟩ := h hscores
  exact ⟨row, hgrows.subset hrow, hid⟩

theorem recordedIn_grows (evaluation : Option (SignalPipelineResult × Datetime)) :
    rows <+: recordedIn rows evaluation := by
  cases evaluation with
  | none => exact List.prefix_refl rows
  | some evaluation => exact insertOrIgnore_grows _

theorem recordedIn_nodup (evaluation : Option (SignalPipelineResult × Datetime))
    (h : (rows.map EvaluationRow.evaluationId).Nodup) :
    ((recordedIn rows evaluation).map EvaluationRow.evaluationId).Nodup := by
  cases evaluation with
  | none => exact h
  | some evaluation => exact insertOrIgnore_nodup _ h

theorem mem_recordedIn {evaluation : Option (SignalPipelineResult × Datetime)} {row : EvaluationRow}
    (h : row ∈ recordedIn rows evaluation) :
    row ∈ rows ∨ ∃ signal utc, evaluation = some (signal, utc) ∧ row = evaluationRow signal utc := by
  cases evaluation with
  | none => exact .inl h
  | some evaluation =>
      have hcases : row ∈ insertOrIgnore (evaluationRow evaluation.1 evaluation.2) rows := h
      unfold insertOrIgnore at hcases
      split at hcases
      · exact .inl hcases
      · rcases List.mem_append.mp hcases with hold | hnew
        · exact .inl hold
        · exact .inr ⟨evaluation.1, evaluation.2, rfl, List.mem_singleton.mp hnew⟩

end Runs

/-- A run of calls: the history grows by rows of its evaluations, under distinct ids; and the world is the one that
the controller leaves after the submissions, in order. -/
structure Run (signals : SignalService) (side : ExecutionSide) (calls : List ProcessCall) (after : ExecutionSide) :
    Prop where
  controller : after.controller = side.controller
  world : after.world = side.world.runCalls ((calls.filterMap (ProcessCall.submitted signals)).map (side.controller, ·))
  grows : side.history <+: after.history
  distinct : (side.history.map EvaluationRow.evaluationId).Nodup → (after.history.map EvaluationRow.evaluationId).Nodup
  rows : ∀ row ∈ after.history, row ∈ side.history ∨
    ∃ call ∈ calls, ∃ signal utc, call.evaluated signals = some (signal, utc) ∧ row = evaluationRow signal utc
  stored : ∀ call ∈ calls, ∀ signal utc, call.evaluated signals = some (signal, utc) → Stored after.history signal

theorem Run.step {signals : SignalService} {side after : ExecutionSide} {calls : List ProcessCall}
    (h : Run signals side calls after) (call : ProcessCall) :
    Run signals side (calls ++ [call])
      (process signals after call.snapshot call.report call.previous call.now).2 := by
  rw [(process_step call).1]
  refine ⟨h.controller, ?_, h.grows.trans (recordedIn_grows _), fun hnodup => recordedIn_nodup _ (h.distinct hnodup),
    fun row hrow => ?_, fun earlier hearlier signal utc hevaluated => ?_⟩
  · rw [List.filterMap_append, List.map_append, World.runCalls, List.foldl_append]
    show submittedIn after.controller after.world _ = _
    rw [h.controller, h.world]
    cases hsubmitted : call.submitted signals with
    | none => simp [hsubmitted, submittedIn, World.runCalls]
    | some submission => simp [hsubmitted, submittedIn, World.runCalls]
  · rcases mem_recordedIn hrow with hold | ⟨signal, utc, hevaluated, hrow⟩
    · rcases h.rows row hold with hstart | ⟨earlier, hearlier, hrow⟩
      · exact .inl hstart
      · exact .inr ⟨earlier, List.mem_append_left _ hearlier, hrow⟩
    · exact .inr ⟨call, List.mem_append_right _ (List.mem_singleton_self _), signal, utc, hevaluated, hrow⟩
  · rcases List.mem_append.mp hearlier with hbefore | hlast
    · exact (h.stored earlier hbefore signal utc hevaluated).mono (recordedIn_grows _)
    · obtain rfl := List.mem_singleton.mp hlast
      rw [hevaluated]
      exact insertOrIgnore_stored signal utc

end TecoQuant.Automation
