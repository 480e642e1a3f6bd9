import Mathlib.Algebra.Order.Round
import Mathlib.Data.Int.Log
import Mathlib.Data.Rat.Floor
import Mathlib.Tactic.Linarith

/-! Decimal arithmetic on values. Where no result depends on trailing zeros, a decimal is its rational
value, and a context is the rounding each operation ends with: exact arithmetic does not round, the
default context rounds half-even to 28 significant digits. Exponent limits are not modelled. -/

/-- Round to an integer, half to even. -/
def roundHalfEven (x : ℚ) : ℤ :=
  if x - ⌊x⌋ < 1 / 2 then ⌊x⌋
  else if 1 / 2 < x - ⌊x⌋ then ⌊x⌋ + 1
  else if ⌊x⌋ % 2 = 0 then ⌊x⌋ else ⌊x⌋ + 1

theorem floor_le_roundHalfEven (x : ℚ) : ⌊x⌋ ≤ roundHalfEven x := by
  unfold roundHalfEven
  split
  · exact le_rfl
  · split
    · omega
    · split <;> omega

/-- The unit of the last of `digits` significant digits. -/
def lastPlace (digits : Nat) (x : ℚ) : ℚ := (10 : ℚ) ^ (Int.log 10 |x| + 1 - digits)

/-- Round half-even to a number of significant digits. -/
def roundDigits (digits : Nat) (x : ℚ) : ℚ :=
  roundHalfEven (x / lastPlace digits x) * lastPlace digits x

theorem lastPlace_pos (digits : Nat) (x : ℚ) : 0 < lastPlace digits x :=
  zpow_pos (by norm_num) _

/-- A positive number stays positive: it has a whole unit in its last place. -/
theorem roundDigits_pos {digits : Nat} (hdigits : 0 < digits) {x : ℚ} (hx : 0 < x) :
    0 < roundDigits digits x := by
  have hunit := lastPlace_pos digits x
  have hle : lastPlace digits x ≤ x := by
    calc lastPlace digits x ≤ (10 : ℚ) ^ Int.log 10 |x| :=
          zpow_le_zpow_right₀ (by norm_num) (by omega)
      _ ≤ x := by
          have h := Int.zpow_log_le_self (b := 10) (by norm_num) (abs_pos.mpr hx.ne')
          rwa [abs_of_pos hx] at h ⊢
  have hone : (1 : ℤ) ≤ ⌊x / lastPlace digits x⌋ :=
    Int.le_floor.mpr (by rw [Int.cast_one, le_div_iff₀ hunit, one_mul]; exact hle)
  have hrounded : (0 : ℚ) < roundHalfEven (x / lastPlace digits x) := by
    have h := hone.trans (floor_le_roundHalfEven _)
    exact_mod_cast (by omega : (0 : ℤ) < roundHalfEven (x / lastPlace digits x))
  exact mul_pos hrounded hunit

/-- The rounding of an arithmetic context. -/
structure DecimalContext where
  round : ℚ → ℚ
  round_pos : ∀ {x}, 0 < x → 0 < round x

namespace DecimalContext

/-- Exact arithmetic. -/
def exact : DecimalContext := ⟨id, id⟩

/-- The context every thread starts with. -/
def default : DecimalContext := ⟨roundDigits 28, roundDigits_pos (by norm_num)⟩

variable (ctx : DecimalContext)

def add (x y : ℚ) : ℚ := ctx.round (x + y)

def sub (x y : ℚ) : ℚ := ctx.round (x - y)

def mul (x y : ℚ) : ℚ := ctx.round (x * y)

/-- Division; none is a division by zero. -/
def div (x y : ℚ) : Option ℚ := if y = 0 then none else some (ctx.round (x / y))

/-- The sum of a list from zero, rounding after each addition. -/
def sum (terms : List ℚ) : ℚ := terms.foldl ctx.add 0

@[simp] theorem exact_add (x y : ℚ) : exact.add x y = x + y := rfl

@[simp] theorem exact_sub (x y : ℚ) : exact.sub x y = x - y := rfl

@[simp] theorem exact_mul (x y : ℚ) : exact.mul x y = x * y := rfl

@[simp] theorem exact_round (x : ℚ) : exact.round x = x := rfl

@[simp] theorem exact_sum (terms : List ℚ) : exact.sum terms = terms.sum := List.sum_eq_foldl.symm

theorem sub_positive {x y : ℚ} (h : y < x) : 0 < ctx.sub x y := ctx.round_pos (sub_pos.mpr h)

theorem mul_positive {x y : ℚ} (hx : 0 < x) (hy : 0 < y) : 0 < ctx.mul x y :=
  ctx.round_pos (mul_pos hx hy)

theorem div_eq_some {x y : ℚ} (hy : 0 < y) : ctx.div x y = some (ctx.round (x / y)) := by
  simp [div, hy.ne']

example : default.round (1 / 3) = 3333333333333333333333333333 / 10 ^ 28 := by decide +kernel

end DecimalContext
