import Mathlib.Algebra.Order.Floor.Semifield
import Mathlib.Data.Rat.Floor
import Mathlib.Tactic.FieldSimp
import Mathlib.Tactic.Linarith
import Mathlib.Tactic.Positivity

/-
  Unsigned fixed-point numbers.

  A number is stored with `int` integer and `frac` fraction
  bits; what does not fit in them is cut off at both ends.

  Key definitions include:
    * `FixedPoint.register`
    * `FixedPoint.value`

  Key theorems include:
    * `FixedPoint.value_le`
    * `FixedPoint.lt_value_add`
-/

------------------------------------------------------------
-- Truncation To A Register
------------------------------------------------------------

namespace FixedPoint

variable {int frac : Nat} {q : ℚ}

/- The stored bits. -/
def register (int frac : Nat) (q : ℚ) : Nat :=
  ⌊q * 2 ^ frac⌋₊ % 2 ^ (int + frac)

/- The number the stored bits stand for. -/
def value (int frac : Nat) (q : ℚ) : ℚ :=
  register int frac q / 2 ^ frac

/- In range only the fraction is cut off. -/
theorem register_of_lt
    (hPos : 0 ≤ q)
    (hLt : q < 2 ^ int) :
    register int frac q = ⌊q * 2 ^ frac⌋₊ := by
  apply Nat.mod_eq_of_lt
  have hScaled : 0 ≤ q * 2 ^ frac := by positivity
  rw [Nat.floor_lt hScaled]
  push_cast
  rw [pow_add]
  exact mul_lt_mul_of_pos_right hLt (by positivity)

theorem value_le
    (hPos : 0 ≤ q)
    (hLt : q < 2 ^ int) :
    value int frac q ≤ q := by
  rw [value, register_of_lt hPos hLt,
    div_le_iff₀ (by positivity)]
  exact Nat.floor_le (by positivity)

theorem lt_value_add
    (hPos : 0 ≤ q)
    (hLt : q < 2 ^ int) :
    q < value int frac q + 1 / 2 ^ frac := by
  rw [value, register_of_lt hPos hLt, ← add_div,
    lt_div_iff₀ (by positivity)]
  exact Nat.lt_floor_add_one _

/- A whole number below `q` stays below. -/
theorem natCast_le_value
    {n : Nat}
    (hLt : q < 2 ^ int)
    (hLe : n ≤ q) :
    n ≤ value int frac q := by
  have hPos : 0 ≤ q := (Nat.cast_nonneg n).trans hLe
  rw [value, register_of_lt hPos hLt,
    le_div_iff₀ (by positivity)]
  have hScaled : ((n * 2 ^ frac : Nat) : ℚ) ≤ q * 2 ^ frac := by
    push_cast
    exact mul_le_mul_of_nonneg_right hLe (by positivity)
  have hFloor := Nat.le_floor hScaled
  exact_mod_cast hFloor

end FixedPoint
