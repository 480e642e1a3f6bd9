import TecoQuant.BaseDecimal
import TecoQuant.BaseExcept

/-! The decimal operations with the special values and the exceptions they raise: the default context
traps invalid operations and divisions by zero. Arithmetic passes a quiet NaN on; an ordering comparison
with one is invalid. Signaling NaNs are not modelled, and exponent limits only where a number is normalized: the
other operations give the result that a context without them gives. -/

/-- The exceptions of arithmetic. -/
inductive ArithmeticError where
  | invalidOperation
  | divisionByZero
  | zeroDivision
  | overflow
  | decimalOverflow
  | domain
  deriving DecidableEq, Repr

namespace Decimal

/-- The sign of a number; a NaN has none. -/
def Negative : Decimal → Bool
  | .finite negative _ _ => negative
  | .infinity negative => negative
  | .nan => false

def IsZero : Decimal → Prop
  | .finite _ coefficient _ => coefficient = 0
  | _ => False

instance : (d : Decimal) → Decidable d.IsZero
  | .finite _ coefficient _ => inferInstanceAs (Decidable (coefficient = 0))
  | .infinity _ | .nan => .isFalse id

/-! ### Arithmetic -/

/-- `left + right`. -/
def plus (ctx : Context) : Decimal → Decimal → Except ArithmeticError Decimal
  | .nan, _ | _, .nan => .ok .nan
  | .infinity n₁, .infinity n₂ => if n₁ = n₂ then .ok (.infinity n₁) else .error .invalidOperation
  | .infinity negative, _ | _, .infinity negative => .ok (.infinity negative)
  | left, right => .ok (add ctx left right)

/-- The operand with its sign flipped, as subtraction uses it. -/
def flip : Decimal → Decimal
  | .finite negative coefficient exponent => .finite (!negative) coefficient exponent
  | .infinity negative => .infinity (!negative)
  | .nan => .nan

/-- `left - right`. -/
def minus (ctx : Context) (left right : Decimal) : Except ArithmeticError Decimal :=
  plus ctx left (flip right)

/-- `left * right`. -/
def times (ctx : Context) : Decimal → Decimal → Except ArithmeticError Decimal
  | .nan, _ | _, .nan => .ok .nan
  | .finite n₁ c₁ e₁, .finite n₂ c₂ e₂ => .ok (mul ctx (.finite n₁ c₁ e₁) (.finite n₂ c₂ e₂))
  | left, right =>
      if left.IsZero ∨ right.IsZero then .error .invalidOperation
      else .ok (.infinity (left.Negative != right.Negative))

/-- Drop trailing zeros of an exact quotient while its exponent is below the ideal one. -/
def towardsIdeal (ideal : Int) : Nat → Nat → Int → Nat × Int
  | 0, coefficient, exponent => (coefficient, exponent)
  | fuel + 1, coefficient, exponent =>
      if exponent < ideal ∧ coefficient % 10 = 0 then towardsIdeal ideal fuel (coefficient / 10) (exponent + 1)
      else (coefficient, exponent)

/-- The quotient of two non-zero finite numbers: enough digits for one rounding, with a sticky last
digit when the division is not exact. -/
def quotient (ctx : Context) (precision : Nat) (negative : Bool) (c₁ : Nat) (e₁ : Int) (c₂ : Nat)
    (e₂ : Int) : Decimal :=
  let shift : Int := numDigits c₂ - numDigits c₁ + precision + 1
  let dividend := c₁ * 10 ^ shift.toNat
  let divisor := c₂ * 10 ^ (-shift).toNat
  let coefficient := dividend / divisor
  if dividend % divisor ≠ 0 then
    ctx.fix negative (if coefficient % 5 = 0 then coefficient + 1 else coefficient) (e₁ - e₂ - shift)
  else
    let (reduced, exponent) := towardsIdeal (e₁ - e₂) shift.toNat coefficient (e₁ - e₂ - shift)
    ctx.fix negative reduced exponent

/-- `left / right` with the precision of the default context. -/
def divide : Decimal → Decimal → Except ArithmeticError Decimal
  | .nan, _ | _, .nan => .ok .nan
  | .infinity _, .infinity _ => .error .invalidOperation
  | .infinity n₁, .finite n₂ _ _ => .ok (.infinity (n₁ != n₂))
  | .finite n₁ _ _, .infinity n₂ => .ok (.finite (n₁ != n₂) 0 0)
  | .finite n₁ c₁ e₁, .finite n₂ c₂ e₂ =>
      if c₂ = 0 then .error (if c₁ = 0 then .invalidOperation else .divisionByZero)
      else if c₁ = 0 then .ok (.finite (n₁ != n₂) 0 (e₁ - e₂))
      else .ok (quotient .default 28 (n₁ != n₂) c₁ e₁ c₂ e₂)

/-- `abs(d)`, which rounds like every operation. -/
def absolute (ctx : Context) : Decimal → Decimal
  | .finite _ coefficient exponent => ctx.fix false coefficient exponent
  | .infinity _ => .infinity false
  | .nan => .nan

/-- `d.to_integral_value(ROUND_FLOOR)`. -/
def floorValue : Decimal → Decimal
  | .finite negative coefficient exponent =>
      if 0 ≤ exponent then .finite negative coefficient exponent
      else
        let whole := ⌊(Decimal.finite negative coefficient exponent).value⌋
        .finite negative whole.natAbs 0
  | d => d

/-- `d.to_integral_value(ROUND_CEILING)`. -/
def ceilingValue : Decimal → Decimal
  | .finite negative coefficient exponent =>
      if 0 ≤ exponent then .finite negative coefficient exponent
      else
        let whole := ⌈(Decimal.finite negative coefficient exponent).value⌉
        .finite negative whole.natAbs 0
  | d => d

/-- `int(d)` of an integral value: an infinity overflows, a NaN is a domain error. -/
def toInt : Decimal → Except ArithmeticError Int
  | .finite negative coefficient exponent => .ok ⌊(Decimal.finite negative coefficient exponent).value⌋
  | .infinity _ => .error .overflow
  | .nan => .error .domain

/-! ### Comparison -/

/-- `left < right` for numbers. -/
def Below : Decimal → Decimal → Prop
  | .infinity n₁, .infinity n₂ => n₁ = true ∧ n₂ = false
  | .infinity negative, _ => negative = true
  | _, .infinity negative => negative = false
  | left, right => left.value < right.value

instance : (left right : Decimal) → Decidable (Below left right)
  | .infinity n₁, .infinity n₂ => inferInstanceAs (Decidable (n₁ = true ∧ n₂ = false))
  | .infinity negative, .finite .. | .infinity negative, .nan => inferInstanceAs (Decidable (negative = true))
  | .finite .., .infinity negative | .nan, .infinity negative => inferInstanceAs (Decidable (negative = false))
  | .finite n₁ c₁ e₁, .finite n₂ c₂ e₂ =>
      inferInstanceAs (Decidable ((Decimal.finite n₁ c₁ e₁).value < (Decimal.finite n₂ c₂ e₂).value))
  | .finite n₁ c₁ e₁, .nan => inferInstanceAs (Decidable ((Decimal.finite n₁ c₁ e₁).value < Decimal.nan.value))
  | .nan, .finite n₂ c₂ e₂ => inferInstanceAs (Decidable (Decimal.nan.value < (Decimal.finite n₂ c₂ e₂).value))
  | .nan, .nan => inferInstanceAs (Decidable (Decimal.nan.value < Decimal.nan.value))

/-- `left < right`; comparing with a NaN is invalid. -/
def less (left right : Decimal) : Except ArithmeticError Bool :=
  match left, right with
  | .nan, _ | _, .nan => .error .invalidOperation
  | _, _ => .ok (decide (Below left right))

/-- `left <= right`. -/
def lessEqual (left right : Decimal) : Except ArithmeticError Bool :=
  match left, right with
  | .nan, _ | _, .nan => .error .invalidOperation
  | _, _ => .ok (decide ¬Below right left)

/-- `left == right`; false for a NaN. -/
def Equal : Decimal → Decimal → Prop
  | .nan, _ | _, .nan => False
  | left, right => ¬Below left right ∧ ¬Below right left

instance : (left right : Decimal) → Decidable (Equal left right)
  | .nan, _ => .isFalse id
  | .finite .., .nan | .infinity _, .nan => .isFalse id
  | .finite n₁ c₁ e₁, .finite n₂ c₂ e₂ => inferInstanceAs (Decidable
      (¬Below (.finite n₁ c₁ e₁) (.finite n₂ c₂ e₂) ∧ ¬Below (.finite n₂ c₂ e₂) (.finite n₁ c₁ e₁)))
  | .finite n₁ c₁ e₁, .infinity n₂ => inferInstanceAs (Decidable
      (¬Below (.finite n₁ c₁ e₁) (.infinity n₂) ∧ ¬Below (.infinity n₂) (.finite n₁ c₁ e₁)))
  | .infinity n₁, .finite n₂ c₂ e₂ => inferInstanceAs (Decidable
      (¬Below (.infinity n₁) (.finite n₂ c₂ e₂) ∧ ¬Below (.finite n₂ c₂ e₂) (.infinity n₁)))
  | .infinity n₁, .infinity n₂ => inferInstanceAs (Decidable
      (¬Below (.infinity n₁) (.infinity n₂) ∧ ¬Below (.infinity n₂) (.infinity n₁)))

/-- `min(left, right)`: the second argument only if it is smaller. -/
def minimum (left right : Decimal) : Except ArithmeticError Decimal := do
  if ← less right left then return right else return left

/-- `max(left, right)`: the second argument only if it is larger. -/
def maximum (left right : Decimal) : Except ArithmeticError Decimal := do
  if ← less left right then return right else return left

/-! ### Text -/

/-- `str(d)`: positional notation for small exponents, scientific otherwise. -/
def text : Decimal → String
  | .finite negative coefficient exponent =>
      let digits := Nat.toDigits 10 coefficient
      let count : Int := digits.length
      let leftDigits := exponent + count
      -- The position of the decimal point, counted from the first digit.
      let point := if exponent ≤ 0 ∧ -6 < leftDigits then leftDigits else 1
      let whole := if point ≤ 0 then ['0'] else digits.take point.toNat ++ List.replicate (point - count).toNat '0'
      let fraction :=
        if point ≤ 0 then '.' :: List.replicate (-point).toNat '0' ++ digits
        else if count ≤ point then [] else '.' :: digits.drop point.toNat
      let scale := leftDigits - point
      let suffix :=
        if scale = 0 then []
        else 'E' :: (if scale < 0 then '-' else '+') :: Nat.toDigits 10 scale.natAbs
      (if negative then "-" else "") ++ String.ofList (whole ++ fraction ++ suffix)
  | .infinity negative => if negative then "-Infinity" else "Infinity"
  | .nan => "NaN"

example : (finite true 1230 (-2)).text = "-12.30" := by decide

/-- A coefficient without its trailing zeros; the fuel bounds their number. -/
def dropZeros : Nat → Nat → Int → Nat × Int
  | 0, coefficient, exponent => (coefficient, exponent)
  | fuel + 1, coefficient, exponent =>
      if coefficient % 10 = 0 then dropZeros fuel (coefficient / 10) (exponent + 1) else (coefficient, exponent)

/-- `d.normalize()` in the default context: rounded to 28 digits, or to the last place of a subnormal number, without
trailing zeros, so that a digit gained by rounding up goes with them. A number beyond the exponent limit overflows. -/
def normalize : Decimal → Except ArithmeticError Decimal
  | .finite negative coefficient exponent =>
      let place := max (exponent + numDigits coefficient - 28) (-1000026)
      let (coefficient, exponent) :=
        if exponent < place then (dropDigits coefficient (place - exponent).toNat, place) else (coefficient, exponent)
      let (coefficient, exponent) := dropZeros (numDigits coefficient) coefficient exponent
      if coefficient = 0 then .ok (.finite negative 0 0)
      else if 999999 < exponent + numDigits coefficient - 1 then .error .decimalOverflow
      else .ok (.finite negative coefficient exponent)
  | d => .ok d

example : normalize (finite false 12500 (-1)) = .ok (finite false 125 1) := by decide

/-! ### Finite operands -/

section Finite

variable {ctx : Context} {left right : Decimal}

theorem plus_of_finite (hleft : left.IsFinite) (hright : right.IsFinite) :
    plus ctx left right = .ok (add ctx left right) := by
  cases left <;> cases right <;> first | rfl | exact hleft.elim | exact hright.elim

theorem times_of_finite (hleft : left.IsFinite) (hright : right.IsFinite) :
    times ctx left right = .ok (mul ctx left right) := by
  cases left <;> cases right <;> first | rfl | exact hleft.elim | exact hright.elim

theorem less_of_finite (hleft : left.IsFinite) (hright : right.IsFinite) :
    less left right = .ok (decide (left < right)) := by
  cases left <;> cases right <;> first | rfl | exact hleft.elim | exact hright.elim

theorem lessEqual_of_finite (hleft : left.IsFinite) (hright : right.IsFinite) :
    lessEqual left right = .ok (decide (left ≤ right)) := by
  cases left <;> cases right <;> first | exact hleft.elim | exact hright.elim | skip
  exact congrArg Except.ok (decide_eq_decide.mpr not_lt)

theorem equal_of_finite (hleft : left.IsFinite) (hright : right.IsFinite) :
    Equal left right ↔ left.value = right.value := by
  cases left with
  | finite n₁ c₁ e₁ =>
      cases right with
      | finite n₂ c₂ e₂ =>
          show (¬_ < _ ∧ ¬_ < _) ↔ _
          rw [not_lt, not_lt]
          exact ⟨fun ⟨hle, hge⟩ => le_antisymm hge hle, fun heq => ⟨heq.ge, heq.le⟩⟩
      | _ => exact hright.elim
  | _ => exact hleft.elim

end Finite

example : divide 1 3 = .ok (.finite false 3333333333333333333333333333 (-28)) := by decide

end Decimal
