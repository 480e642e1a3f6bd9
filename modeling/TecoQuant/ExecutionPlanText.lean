import TecoQuant.BaseDatetimeText
import TecoQuant.BaseDecimalText
import TecoQuant.BaseDict
import TecoQuant.ExecutionModels

/-! The text of a plan in the `plan_json` column, and its reading. A plan whose times are datetimes of the calendar
is read back as it was written. -/

namespace Json

/-- Sorting the keys of an object changes the value of none of them. -/
theorem get?_sortKeys {fields : List (String × Json)} {key : String} {value : Json}
    (hnodup : (fields.map Prod.fst).Nodup) (hmem : (key, value) ∈ fields) :
    (sortKeys (.object fields)).get? key = some (sortKeys value) := by
  have hperm := byKey_perm (sortFields fields)
  rw [sortKeys, get?]
  apply Dict.lookup_of_mem
  · rw [(hperm.map Prod.fst).nodup_iff, map_fst_sortFields]
    exact hnodup
  · rw [hperm.mem_iff, sortFields_eq_map]
    exact List.mem_map_of_mem hmem

/-- `str(value)`; the representation of arrays and objects is left out. -/
def str : Json → Option String
  | .null => some "None"
  | .bool true => some "True"
  | .bool false => some "False"
  | .int value => some (String.ofList (intText value))
  | .float value => some value.repr
  | .string value => some value
  | _ => none

/-- `bool(value)`. -/
def truthy : Json → Bool
  | .null => false
  | .bool value => value
  | .int value => value ≠ 0
  | .float (.finite _ value) => value ≠ 0
  | .float _ => true
  | .string value => value ≠ ""
  | .array items => !items.isEmpty
  | .object fields => !fields.isEmpty

end Json

namespace TecoQuant.Execution

def OrderSide.value : OrderSide → String
  | .buy => "BUY"
  | .sell => "SELL"

/-- `OrderSide(value)`. -/
def OrderSide.ofValue (value : String) : Option OrderSide :=
  if value = "BUY" then some .buy else if value = "SELL" then some .sell else none

/-- A flag that may be `None`. -/
def flagJson : Option Bool → Json
  | none => .null
  | some value => .bool value

/-- `plan_to_dict`. -/
def planToDict (plan : TradePlan) : List (String × Json) := [
  ("signal_id", .string plan.signalId),
  ("correlation_id", .string plan.correlationId),
  ("symbol", .string plan.symbol),
  ("security_id", .string plan.securityId),
  ("side", .string plan.side.value),
  ("quantity", .int plan.quantity),
  ("limit_price", .string plan.limitPrice.str),
  ("maximum_loss", .string plan.maximumLoss.str),
  ("signal_time", .string plan.signalTime.isoformat),
  ("data_time", .string plan.dataTime.isoformat),
  ("valid_until", .string plan.validUntil.isoformat),
  ("contract_expiry", .string plan.contractExpiry.isoformat),
  ("event_risk_active", flagJson plan.eventRiskActive),
  ("expiry_risk_clear", .bool plan.expiryRiskClear),
  ("strategy_version", .string plan.strategyVersion)]

/-- The text of `plan_json`: `_json(plan_to_dict(plan))`. -/
def planJson (plan : TradePlan) : String := Json.dumps false (.object (planToDict plan))

/-- `str(value[key])`; none is an exception. -/
def textField (value : Json) (key : String) : Option String := value.get? key >>= Json.str

def decimalField (value : Json) (key : String) : Option Decimal := textField value key >>= Decimal.ofText

def timeField (value : Json) (key : String) : Option Datetime := textField value key >>= Datetime.fromisoformat

/-- `int(value[key])` of an integer; other values are left out. -/
def integerField (value : Json) (key : String) : Option Int :=
  match value.get? key with
  | some (.int n) => some n
  | _ => none

/-- `value.get(key)` of a flag or `None`; other values are left out. -/
def flagField (value : Json) (key : String) : Option (Option Bool) :=
  match value.get? key with
  | none | some .null => some none
  | some (.bool flag) => some (some flag)
  | _ => none

/-- `plan_from_dict`; none is an exception. -/
def planFromDict (value : Json) : Option TradePlan := do
  let signalId ← textField value "signal_id"
  let correlationId ← textField value "correlation_id"
  let symbol ← textField value "symbol"
  let securityId ← textField value "security_id"
  let side ← textField value "side" >>= OrderSide.ofValue
  let quantity ← integerField value "quantity"
  let limitPrice ← decimalField value "limit_price"
  let maximumLoss ← decimalField value "maximum_loss"
  let signalTime ← timeField value "signal_time"
  let dataTime ← timeField value "data_time"
  let validUntil ← timeField value "valid_until"
  let contractExpiry ← timeField value "contract_expiry"
  let eventRiskActive ← flagField value "event_risk_active"
  let expiryRiskClear ← value.get? "expiry_risk_clear"
  let strategyVersion ← textField value "strategy_version"
  return {
    signalId := signalId
    correlationId := correlationId
    symbol := symbol
    securityId := securityId
    side := side
    quantity := quantity
    limitPrice := limitPrice
    maximumLoss := maximumLoss
    signalTime := signalTime
    dataTime := dataTime
    validUntil := validUntil
    contractExpiry := contractExpiry
    eventRiskActive := eventRiskActive
    expiryRiskClear := expiryRiskClear.truthy
    strategyVersion := strategyVersion }

/-- `plan_from_dict(json.loads(text))`. -/
def readPlan (text : String) : Option TradePlan := Json.loads text >>= planFromDict

/-- The four times of a plan are datetimes of the calendar. -/
structure TradePlan.IsRepresentable (plan : TradePlan) : Prop where
  signalTime : plan.signalTime.IsRepresentable
  dataTime : plan.dataTime.IsRepresentable
  validUntil : plan.validUntil.IsRepresentable
  contractExpiry : plan.contractExpiry.IsRepresentable

section RoundTrip

variable {plan : TradePlan}

theorem planToDict_nodup (plan : TradePlan) : ((planToDict plan).map Prod.fst).Nodup := by
  simp [planToDict]

theorem planToDict_plain (plan : TradePlan) : (Json.object (planToDict plan)).Plain := by
  refine ⟨planToDict_nodup plan, ?_⟩
  have hflag : (flagJson plan.eventRiskActive).Plain := by
    cases plan.eventRiskActive <;> trivial
  exact ⟨trivial, trivial, trivial, trivial, trivial, trivial, trivial, trivial, trivial, trivial, trivial, trivial,
    hflag, trivial, trivial, trivial⟩

@[simp] theorem OrderSide.ofValue_value (side : OrderSide) : ofValue side.value = some side := by
  cases side <;> rfl

/-- The value of a field of a plan, in the order of its keys. -/
def planValue (plan : TradePlan) : Json := Json.sortKeys (.object (planToDict plan))

theorem get?_planValue {key : String} {value : Json} (h : (key, value) ∈ planToDict plan) :
    (planValue plan).get? key = some (Json.sortKeys value) :=
  Json.get?_sortKeys (planToDict_nodup plan) h

theorem textField_planValue {key text : String} (h : (key, Json.string text) ∈ planToDict plan) :
    textField (planValue plan) key = some text := by
  simp only [textField, get?_planValue h, Option.bind_eq_bind, Option.bind_some, Json.sortKeys, Json.str]

theorem timeField_planValue {key : String} {t : Datetime} (ht : t.IsRepresentable)
    (h : (key, Json.string t.isoformat) ∈ planToDict plan) : timeField (planValue plan) key = some t := by
  simp only [timeField, textField_planValue h, Option.bind_eq_bind, Option.bind_some, Datetime.fromisoformat_isoformat ht]

theorem decimalField_planValue {key : String} {d : Decimal} (h : (key, Json.string d.str) ∈ planToDict plan) :
    decimalField (planValue plan) key = some d := by
  simp only [decimalField, textField_planValue h, Option.bind_eq_bind, Option.bind_some, Decimal.ofText_str]

theorem integerField_planValue {key : String} {n : Int} (h : (key, Json.int n) ∈ planToDict plan) :
    integerField (planValue plan) key = some n := by
  simp only [integerField, get?_planValue h, Json.sortKeys]

theorem flagField_planValue {key : String} {flag : Option Bool} (h : (key, flagJson flag) ∈ planToDict plan) :
    flagField (planValue plan) key = some flag := by
  cases flag <;> simp only [flagField, get?_planValue h, flagJson, Json.sortKeys]

/-- A plan is read back from its text. -/
theorem readPlan_planJson (h : plan.IsRepresentable) : readPlan (planJson plan) = some plan := by
  have htext {key text : String} (hmem : (key, Json.string text) ∈ planToDict plan) := textField_planValue hmem
  have hsignalId := htext (show ("signal_id", Json.string plan.signalId) ∈ planToDict plan by simp [planToDict])
  have hcorrelationId :=
    htext (show ("correlation_id", Json.string plan.correlationId) ∈ planToDict plan by simp [planToDict])
  have hsymbol := htext (show ("symbol", Json.string plan.symbol) ∈ planToDict plan by simp [planToDict])
  have hsecurityId := htext (show ("security_id", Json.string plan.securityId) ∈ planToDict plan by simp [planToDict])
  have hside := htext (show ("side", Json.string plan.side.value) ∈ planToDict plan by simp [planToDict])
  have hversion :=
    htext (show ("strategy_version", Json.string plan.strategyVersion) ∈ planToDict plan by simp [planToDict])
  have hquantity :=
    integerField_planValue (show ("quantity", Json.int plan.quantity) ∈ planToDict plan by simp [planToDict])
  have hlimit := decimalField_planValue
    (show ("limit_price", Json.string plan.limitPrice.str) ∈ planToDict plan by simp [planToDict])
  have hloss := decimalField_planValue
    (show ("maximum_loss", Json.string plan.maximumLoss.str) ∈ planToDict plan by simp [planToDict])
  have hsignalTime := timeField_planValue h.signalTime
    (show ("signal_time", Json.string plan.signalTime.isoformat) ∈ planToDict plan by simp [planToDict])
  have hdataTime := timeField_planValue h.dataTime
    (show ("data_time", Json.string plan.dataTime.isoformat) ∈ planToDict plan by simp [planToDict])
  have hvalidUntil := timeField_planValue h.validUntil
    (show ("valid_until", Json.string plan.validUntil.isoformat) ∈ planToDict plan by simp [planToDict])
  have hexpiry := timeField_planValue h.contractExpiry
    (show ("contract_expiry", Json.string plan.contractExpiry.isoformat) ∈ planToDict plan by simp [planToDict])
  have hrisk := flagField_planValue
    (show ("event_risk_active", flagJson plan.eventRiskActive) ∈ planToDict plan by simp [planToDict])
  have hclear := get?_planValue
    (show ("expiry_risk_clear", Json.bool plan.expiryRiskClear) ∈ planToDict plan by simp [planToDict])
  simp only [readPlan, planJson, Json.loads_dumps (planToDict_plain plan), Option.bind_eq_bind, Option.bind_some]
  change planFromDict (planValue plan) = some plan
  simp only [planFromDict, Option.bind_eq_bind, Option.bind_some, Option.pure_def, hsignalId, hcorrelationId, hsymbol,
    hsecurityId, hside, OrderSide.ofValue_value, hquantity, hlimit, hloss, hsignalTime, hdataTime, hvalidUntil, hexpiry,
    hrisk, hclear, hversion, Json.sortKeys, Json.truthy]

end RoundTrip

end TecoQuant.Execution
