import Mathlib.Algebra.Order.Field.Rat
import Mathlib.Data.Nat.Log
import Mathlib.Data.Rat.Floor

/-! Decimal floating point as the standard `decimal` module computes it: a sign, a coefficient and a
power of ten, and a context that rounds every result half-even to a number of significant digits.
Exponent limits are not modelled; a context without a precision is exact arithmetic. -/

/-- A decimal number with its representation: `± coefficient * 10 ^ exponent`. -/
inductive Decimal where
  | finite (negative : Bool) (coefficient : Nat) (exponent : Int)
  | infinity (negative : Bool)
  | nan
  deriving DecidableEq, Repr

namespace Decimal

/-- An integer as a decimal. -/
def ofInt (n : Int) : Decimal := .finite (decide (n < 0)) n.natAbs 0

instance (n : Nat) : OfNat Decimal n := ⟨.finite false n 0⟩

/-- The rational a finite decimal denotes; the others have none and are given `0`. -/
def value : Decimal → ℚ
  | .finite negative coefficient exponent =>
      (if negative then -1 else 1) * coefficient * (10 : ℚ) ^ exponent
  | _ => 0

def IsFinite : Decimal → Prop
  | .finite .. => True
  | _ => False

instance (d : Decimal) : Decidable d.IsFinite := by
  cases d <;> unfold IsFinite <;> infer_instance

/-- Comparison of finite decimals is comparison of their values. -/
instance : LT Decimal := ⟨fun left right => left.value < right.value⟩

instance : LE Decimal := ⟨fun left right => left.value ≤ right.value⟩

instance (left right : Decimal) : Decidable (left < right) :=
  inferInstanceAs (Decidable (left.value < right.value))

instance (left right : Decimal) : Decidable (left ≤ right) :=
  inferInstanceAs (Decidable (left.value ≤ right.value))

theorem lt_iff {left right : Decimal} : left < right ↔ left.value < right.value := Iff.rfl

theorem le_iff {left right : Decimal} : left ≤ right ↔ left.value ≤ right.value := Iff.rfl

/-- The number of decimal digits of a coefficient. -/
def numDigits (coefficient : Nat) : Nat := Nat.log 10 coefficient + 1

/-- Drop the last `count` digits, rounding half to even. -/
def dropDigits (coefficient count : Nat) : Nat :=
  let unit := 10 ^ count
  let quotient := coefficient / unit
  let remainder := coefficient % unit
  if 2 * remainder < unit then quotient
  else if unit < 2 * remainder then quotient + 1
  else if quotient % 2 = 0 then quotient else quotient + 1

/-- The arithmetic context: its precision, or none for exact arithmetic. -/
structure Context where
  precision : Option Nat
  deriving DecidableEq, Repr

/-- The context every thread starts with. -/
def Context.default : Context := ⟨some 28⟩

def Context.exact : Context := ⟨none⟩

/-- Round a result to the precision of the context. A coefficient that rounds up to one more digit
ends in a zero, which moves into the exponent. -/
def Context.fix (ctx : Context) (negative : Bool) (coefficient : Nat) (exponent : Int) : Decimal :=
  match ctx.precision with
  | none => .finite negative coefficient exponent
  | some precision =>
      if numDigits coefficient ≤ precision then .finite negative coefficient exponent
      else
        let count := numDigits coefficient - precision
        let rounded := dropDigits coefficient count
        if numDigits rounded ≤ precision then .finite negative rounded (exponent + count)
        else .finite negative (rounded / 10) (exponent + count + 1)

/-- Multiplication. The operands of every product below are finite. -/
def mul (ctx : Context) : Decimal → Decimal → Decimal
  | .finite n₁ c₁ e₁, .finite n₂ c₂ e₂ => ctx.fix (n₁ != n₂) (c₁ * c₂) (e₁ + e₂)
  | _, _ => .nan

/-- The coefficient with its sign, scaled to a smaller exponent. -/
def signedAt (negative : Bool) (coefficient : Nat) (shift : Nat) : Int :=
  (if negative then -1 else 1) * (coefficient * 10 ^ shift : Nat)

/-- Addition: align to the smaller exponent, add, round. -/
def add (ctx : Context) : Decimal → Decimal → Decimal
  | .finite n₁ c₁ e₁, .finite n₂ c₂ e₂ =>
      let exponent := min e₁ e₂
      let total := signedAt n₁ c₁ (e₁ - exponent).toNat + signedAt n₂ c₂ (e₂ - exponent).toNat
      ctx.fix (decide (total < 0) || (total == 0 && n₁ && n₂)) total.natAbs exponent
  | _, _ => .nan

/-- Unary minus rounds like every other operation; the negation of a zero is a positive zero. -/
def neg (ctx : Context) : Decimal → Decimal
  | .finite negative coefficient exponent =>
      ctx.fix (!negative && coefficient != 0) coefficient exponent
  | .infinity negative => .infinity (!negative)
  | .nan => .nan

/-- Subtraction adds the operand with its sign flipped, without a rounding in between. -/
def sub (ctx : Context) (left : Decimal) : Decimal → Decimal
  | .finite negative coefficient exponent => add ctx left (.finite (!negative) coefficient exponent)
  | _ => .nan

/-- Division by `10 ^ places`. -/
def shiftDown (ctx : Context) (places : Nat) : Decimal → Decimal
  | .finite negative coefficient exponent => ctx.fix negative coefficient (exponent - places)
  | d => d

/-- `quantize` to `places` fraction digits; none is the `InvalidOperation` of a coefficient that does
not fit the precision. -/
def quantize (ctx : Context) (places : Nat) : Decimal → Option Decimal
  | .finite negative coefficient exponent =>
      let scaled :=
        if -(places : Int) ≤ exponent then coefficient * 10 ^ (exponent + places).toNat
        else dropDigits coefficient (-(places : Int) - exponent).toNat
      match ctx.precision with
      | some precision =>
          if numDigits scaled ≤ precision then some (.finite negative scaled (-places)) else none
      | none => some (.finite negative scaled (-places))
  | _ => none

/-- `to_integral_value` towards minus infinity. -/
def floor (d : Decimal) : Int := ⌊d.value⌋

/-- The sum of a list from zero, rounding after each addition. -/
def sum (ctx : Context) (terms : List Decimal) : Decimal := terms.foldl (add ctx) 0

/-- The decimal that the text of `format(d, "f")` denotes: the same value with no positive exponent. -/
def plain : Decimal → Decimal
  | .finite negative coefficient exponent =>
      if 0 < exponent then .finite negative (coefficient * 10 ^ exponent.toNat) 0
      else .finite negative coefficient exponent
  | d => d

@[simp] theorem value_zero : (0 : Decimal).value = 0 := by
  change (if false then (-1 : ℚ) else 1) * ((0 : Nat) : ℚ) * 10 ^ (0 : ℤ) = 0
  simp

@[simp] theorem plain_value (d : Decimal) : d.plain.value = d.value := by
  cases d with
  | finite negative coefficient exponent =>
      simp only [plain]
      split
      · rename_i hpos
        have hpow : (10 : ℚ) ^ exponent = 10 ^ exponent.toNat := by
          rw [← zpow_natCast, Int.toNat_of_nonneg hpos.le]
        simp only [value, hpow, Nat.cast_mul, Nat.cast_pow, Nat.cast_ofNat, zpow_zero, mul_one]
        ring
      · rfl
  | infinity negative => rfl
  | nan => rfl

@[simp] theorem plain_isFinite {d : Decimal} : d.plain.IsFinite ↔ d.IsFinite := by
  cases d with
  | finite negative coefficient exponent =>
      simp only [plain]
      split <;> simp [IsFinite]
  | infinity negative => rfl
  | nan => rfl

example : sub .default 90 (.finite false 1001 (-1)) = .finite true 101 (-1) := by decide

/-- Numerical equality of finite decimals. -/
def Same (left right : Decimal) : Prop := left.IsFinite ∧ right.IsFinite ∧ left.value = right.value

theorem same_plain {d : Decimal} (h : d.IsFinite) : Same d.plain d :=
  ⟨plain_isFinite.mpr h, h, plain_value d⟩

end Decimal
