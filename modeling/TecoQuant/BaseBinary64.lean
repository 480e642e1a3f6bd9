import Mathlib.Algebra.Order.Field.Rat
import Mathlib.Data.Rat.Floor
import TecoQuant.BaseDecimalSignals

/-! IEEE 754 binary64 numbers over the rationals. A finite number is its exact value, with a sign that
matters for zeros; every operation rounds its exact result to nearest, ties to even. The text of a
number is the shortest one that reads back as the same number. -/

inductive Binary64 where
  | finite (negative : Bool) (value : ℚ)
  | infinity (negative : Bool)
  | nan
  deriving DecidableEq, Repr

namespace Binary64

/-- The rational a finite number denotes; the others have none and are given `0`. -/
def toRat : Binary64 → ℚ
  | .finite _ value => value
  | _ => 0

/-- `math.isfinite`. -/
def IsFinite : Binary64 → Prop
  | .finite .. => True
  | _ => False

instance (x : Binary64) : Decidable x.IsFinite := by
  cases x <;> unfold IsFinite <;> infer_instance

/-! ### Comparison -/

/-- `x < y`; false for a NaN. -/
def Lt : Binary64 → Binary64 → Prop
  | .finite _ x, .finite _ y => x < y
  | .finite .., .infinity negative => negative = false
  | .infinity negative, .finite .. => negative = true
  | .infinity n₁, .infinity n₂ => n₁ = true ∧ n₂ = false
  | _, _ => False

/-- `x <= y`; false for a NaN. -/
def Le : Binary64 → Binary64 → Prop
  | .finite _ x, .finite _ y => x ≤ y
  | .finite .., .infinity negative => negative = false
  | .infinity negative, .finite .. => negative = true
  | .infinity n₁, .infinity n₂ => n₁ = true ∨ n₂ = false
  | _, _ => False

instance : LT Binary64 := ⟨Lt⟩

instance : LE Binary64 := ⟨Le⟩

instance (x y : Binary64) : Decidable (x < y) := by
  change Decidable (Lt x y)
  cases x <;> cases y <;> unfold Lt <;> infer_instance

instance (x y : Binary64) : Decidable (x ≤ y) := by
  change Decidable (Le x y)
  cases x <;> cases y <;> unfold Le <;> infer_instance

/-- `x == y`: equality of values. -/
def Equal (x y : Binary64) : Prop := x ≤ y ∧ y ≤ x

instance (x y : Binary64) : Decidable (Equal x y) := inferInstanceAs (Decidable (_ ∧ _))

section Finite

variable {x y : Binary64}

theorem lt_iff (hx : x.IsFinite) (hy : y.IsFinite) : x < y ↔ x.toRat < y.toRat := by
  cases x <;> cases y <;> first | exact hx.elim | exact hy.elim | exact Iff.rfl

theorem le_iff (hx : x.IsFinite) (hy : y.IsFinite) : x ≤ y ↔ x.toRat ≤ y.toRat := by
  cases x <;> cases y <;> first | exact hx.elim | exact hy.elim | exact Iff.rfl

theorem not_lt_iff (hx : x.IsFinite) (hy : y.IsFinite) : ¬x < y ↔ y ≤ x := by
  rw [lt_iff hx hy, le_iff hy hx, not_lt]

/-- A number that is not below a finite one, and no NaN, is at least it. -/
theorem le_of_not_lt (hx : x ≠ .nan) (hy : y.IsFinite) (h : ¬x < y) : y ≤ x := by
  cases y with
  | finite m b =>
      cases x with
      | finite n a => exact (not_lt_iff (x := .finite n a) (y := .finite m b) trivial trivial).mp h
      | infinity negative => exact eq_false_of_ne_true h
      | nan => exact absurd rfl hx
  | _ => exact hy.elim

theorem le_of_not_gt (hx : x ≠ .nan) (hy : y.IsFinite) (h : ¬y < x) : x ≤ y := by
  cases y with
  | finite m b =>
      cases x with
      | finite n a => exact (not_lt_iff (x := .finite m b) (y := .finite n a) trivial trivial).mp h
      | infinity negative => exact eq_true_of_ne_false h
      | nan => exact absurd rfl hx
  | _ => exact hy.elim

theorem lt_of_not_le (hx : x ≠ .nan) (hy : y.IsFinite) (h : ¬x ≤ y) : y < x := by
  cases y with
  | finite m b =>
      cases x with
      | finite n a => exact not_le.mp (show ¬a ≤ b from h)
      | infinity negative => exact eq_false_of_ne_true h
      | nan => exact absurd rfl hx
  | _ => exact hy.elim

theorem max_isFinite (hx : x.IsFinite) (hy : y.IsFinite) : (if x < y then y else x).IsFinite := by
  split
  · exact hy
  · exact hx

/-- A number between two finite ones is finite. -/
theorem isFinite_of_between {low high : Binary64} (hlow : low.IsFinite) (hhigh : high.IsFinite)
    (h : low ≤ x ∧ x ≤ high) : x.IsFinite := by
  obtain ⟨hge, hle⟩ := h
  cases low with
  | finite n a =>
      cases high with
      | finite m b =>
          cases x with
          | finite negative value => trivial
          | infinity negative => exact absurd ((show negative = false from hge).symm.trans hle) Bool.false_ne_true
          | nan => exact hge.elim
      | _ => exact hhigh.elim
  | _ => exact hlow.elim

end Finite

/-! ### Rounding -/

/-- The integer part of the binary logarithm of a positive rational. -/
def ilog2 (q : ℚ) : Int :=
  let estimate : Int := Nat.log2 q.num.natAbs - Nat.log2 q.den
  if (2 : ℚ) ^ estimate ≤ q then estimate else estimate - 1

/-- The nearest integer, ties to even. -/
def roundHalfEven (q : ℚ) : Int :=
  let below := ⌊q⌋
  if q - below < 1 / 2 then below
  else if 1 / 2 < q - below then below + 1
  else if below % 2 = 0 then below else below + 1

/-- The distance between neighbouring numbers around a positive rational. -/
def unit (q : ℚ) : ℚ := (2 : ℚ) ^ max (ilog2 q - 52) (-1074)

/-- The nearest number; a zero gets the sign `zeroSign`. -/
def round (zeroSign : Bool) (q : ℚ) : Binary64 :=
  if q = 0 then .finite zeroSign 0
  else
    let magnitude := roundHalfEven (|q| / unit |q|) * unit |q|
    if 2 ^ 1024 ≤ magnitude then .infinity (decide (q < 0))
    else .finite (decide (q < 0)) (if q < 0 then -magnitude else magnitude)

theorem round_ne_nan (zeroSign : Bool) (q : ℚ) : round zeroSign q ≠ .nan := by
  unfold round
  dsimp only
  split
  · nofun
  · split <;> nofun

/-! ### Arithmetic -/

/-- A number given by its exact value. -/
def ofRat (q : ℚ) : Binary64 := .finite (decide (q < 0)) q

instance (n : Nat) : OfNat Binary64 n := ⟨ofRat n⟩

/-- A decimal literal reads as the nearest number. -/
instance : OfScientific Binary64 :=
  ⟨fun mantissa down exponent => round false (OfScientific.ofScientific mantissa down exponent : ℚ)⟩

def neg : Binary64 → Binary64
  | .finite negative value => .finite (!negative) (-value)
  | .infinity negative => .infinity (!negative)
  | .nan => .nan

instance : Neg Binary64 := ⟨neg⟩

def abs : Binary64 → Binary64
  | .finite _ value => .finite false |value|
  | .infinity _ => .infinity false
  | .nan => .nan

def add : Binary64 → Binary64 → Binary64
  | .finite n₁ x, .finite n₂ y => round (n₁ && n₂) (x + y)
  | .infinity n₁, .infinity n₂ => if n₁ = n₂ then .infinity n₁ else .nan
  | .infinity negative, .finite .. => .infinity negative
  | .finite .., .infinity negative => .infinity negative
  | _, _ => .nan

def sub (x y : Binary64) : Binary64 := add x (neg y)

def mul : Binary64 → Binary64 → Binary64
  | .finite n₁ x, .finite n₂ y => round (n₁ != n₂) (x * y)
  | .infinity n₁, .infinity n₂ => .infinity (n₁ != n₂)
  | .infinity n₁, .finite n₂ y => if y = 0 then .nan else .infinity (n₁ != n₂)
  | .finite n₁ x, .infinity n₂ => if x = 0 then .nan else .infinity (n₁ != n₂)
  | _, _ => .nan

/-- `x / y`. -/
def div : Binary64 → Binary64 → Except ArithmeticError Binary64
  | .finite n₁ x, .finite n₂ y =>
      if y = 0 then .error .zeroDivision else .ok (round (n₁ != n₂) (x / y))
  | .infinity n₁, .finite n₂ y => if y = 0 then .error .zeroDivision else .ok (.infinity (n₁ != n₂))
  | .finite n₁ _, .infinity n₂ => .ok (.finite (n₁ != n₂) 0)
  | .nan, .finite _ y => if y = 0 then .error .zeroDivision else .ok .nan
  | _, _ => .ok .nan

/-- Only a zero divides into an error. -/
theorem div_succeeds (x : Binary64) {y : Binary64} (hy : ¬y ≤ 0) : ∃ quotient, x.div y = .ok quotient := by
  cases y with
  | finite negative value =>
      have hne : value ≠ 0 := by
        rintro rfl
        exact hy (show (0 : ℚ) ≤ ((0 : Nat) : ℚ) by simp)
      cases x <;> exact ⟨_, by simp [div, hne]; rfl⟩
  | infinity => cases x <;> exact ⟨_, rfl⟩
  | nan => cases x <;> exact ⟨_, rfl⟩

/-- The integer nearest to the square root of a non-negative rational, ties to even. -/
def sqrtHalfEven (q : ℚ) : Int :=
  let below := Nat.sqrt ⌊q⌋.toNat
  let middle : ℚ := (below + 1 / 2) ^ 2
  if q < middle then below
  else if middle < q then below + 1
  else if below % 2 = 0 then below else below + 1

/-- `math.sqrt`. -/
def sqrt : Binary64 → Except ArithmeticError Binary64
  | .finite negative value =>
      if value < 0 then .error .domain
      else if value = 0 then .ok (.finite negative 0)
      else
        let unit : ℚ := 2 ^ max (ilog2 value / 2 - 52) (-1074)
        .ok (.finite false (sqrtHalfEven (value / unit ^ 2) * unit))
  | .infinity negative => if negative then .error .domain else .ok (.infinity false)
  | .nan => .ok .nan

/-- `min(left, right)`: the second argument only if it is smaller. -/
def min (left right : Binary64) : Binary64 := if right < left then right else left

/-- `max(left, right)`: the second argument only if it is larger. -/
def max (left right : Binary64) : Binary64 := if left < right then right else left

/-- `sum(terms)`, from the left; the start is an integer zero. -/
def sum (terms : List Binary64) : Binary64 := terms.foldl add 0

/-- `left / right` of two integers; a quotient beyond the range overflows. -/
def ofQuotient (left right : Int) : Except ArithmeticError Binary64 :=
  if right = 0 then .error .zeroDivision
  else
    match round false ((left : ℚ) / right) with
    | .infinity _ => .error .overflow
    | x => .ok x

theorem ofQuotient_ne_nan {left right : Int} {x : Binary64} (h : ofQuotient left right = .ok x) : x ≠ .nan := by
  unfold ofQuotient at h
  split at h
  · cases h
  · split at h
    · cases h
    · cases h
      exact round_ne_nan _ _

theorem neg_isFinite {x : Binary64} (hx : x.IsFinite) : (-x).IsFinite := by
  cases x <;> trivial

/-- The distance of two finite numbers is no NaN. -/
theorem abs_sub_ne_nan {x y : Binary64} (hx : x.IsFinite) (hy : y.IsFinite) : (x.sub y).abs ≠ .nan := by
  cases x with
  | finite n a =>
      cases y with
      | finite m b =>
          have hround := round_ne_nan (n && !m) (a + -b)
          change (round (n && !m) (a + -b)).abs ≠ .nan
          cases hvalue : round (n && !m) (a + -b) with
          | nan => exact absurd hvalue hround
          | finite _ _ => nofun
          | infinity _ => nofun
      | _ => exact hy.elim
  | _ => exact hx.elim

/-- `float(d)`. -/
def ofDecimal : Decimal → Binary64
  | .finite negative coefficient exponent =>
      round negative (Decimal.finite negative coefficient exponent).value
  | .infinity negative => .infinity negative
  | .nan => .nan

/-! ### Text -/

/-- The integer part of the decimal logarithm of a positive rational. -/
def ilog10 (q : ℚ) : Int :=
  let estimate : Int := Nat.log 10 q.num.natAbs - Nat.log 10 q.den
  if (10 : ℚ) ^ estimate ≤ q then estimate else estimate - 1

/-- The `count`-digit coefficient nearest to a positive number among those that read back as it. -/
def digitsOf (value : ℚ) (exponent : Int) : Option Nat :=
  let scaled := value / (10 : ℚ) ^ exponent
  let below := ⌊scaled⌋.toNat
  let reads (coefficient : Nat) : Prop := round false (coefficient * (10 : ℚ) ^ exponent) = .finite false value
  let nearer : Nat := (roundHalfEven scaled).toNat
  let other : Nat := if nearer = below then below + 1 else below
  if reads nearer then some nearer else if reads other then some other else none

/-- The shortest coefficient, with its exponent, that reads back as a positive number: with one digit,
with two, and so on. -/
def shortestFrom (value : ℚ) : Nat → Int → Nat × Int
  | 0, exponent => ((roundHalfEven (value / (10 : ℚ) ^ exponent)).toNat, exponent)
  | more + 1, exponent =>
      match digitsOf value exponent with
      | some coefficient => (coefficient, exponent)
      | none => shortestFrom value more (exponent - 1)

def shortest (value : ℚ) : Nat × Int := shortestFrom value 16 (ilog10 value)

/-- The text of a finite magnitude: positional notation for moderate exponents, scientific otherwise. -/
def magnitudeText (value : ℚ) : String :=
  if value = 0 then "0.0"
  else
    let (coefficient, exponent) := shortest value
    let text := Nat.toDigits 10 coefficient
    let count : Int := text.length
    -- The position of the decimal point, counted from the first digit.
    let point := count + exponent
    if -4 < point ∧ point ≤ 16 then
      if point ≤ 0 then "0." ++ String.ofList (List.replicate (-point).toNat '0' ++ text)
      else if count ≤ point then
        String.ofList (text ++ List.replicate (point - count).toNat '0') ++ ".0"
      else String.ofList (text.take point.toNat) ++ "." ++ String.ofList (text.drop point.toNat)
    else
      let fraction := if text.length = 1 then [] else '.' :: text.drop 1
      let scale := Nat.toDigits 10 (point - 1).natAbs
      let padded := if scale.length = 1 then '0' :: scale else scale
      String.ofList (text.take 1 ++ fraction) ++ "e" ++ (if point - 1 < 0 then "-" else "+") ++
        String.ofList padded

/-- `repr(x)`. -/
def repr : Binary64 → String
  | .finite negative value => (if negative then "-" else "") ++ magnitudeText |value|
  | .infinity negative => if negative then "-inf" else "inf"
  | .nan => "nan"

/-- `Decimal(str(x))`: the coefficient and the exponent the text shows. -/
def toDecimal : Binary64 → Decimal
  | .finite negative value =>
      if value = 0 then .finite negative 0 (-1)
      else
        let (coefficient, exponent) := shortest |value|
        let count : Int := Decimal.numDigits coefficient
        if 0 ≤ exponent ∧ count + exponent ≤ 16 then
          .finite negative (coefficient * 10 ^ (exponent + 1).toNat) (-1)
        else .finite negative coefficient exponent
  | .infinity negative => .infinity negative
  | .nan => .nan

example : repr (round false (1 / 10)) = "0.1" := by decide +kernel

example : toDecimal (round false (2 / 100)) = .finite false 2 (-2) := by decide +kernel

end Binary64
