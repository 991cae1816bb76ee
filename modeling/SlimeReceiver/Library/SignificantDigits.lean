import Mathlib.Data.Int.Log
import Mathlib.Data.Rat.Floor
import Mathlib.Algebra.Order.Field.Power
import Mathlib.Tactic.Linarith
import Mathlib.Tactic.Positivity
import Mathlib.Tactic.Ring

/-! # Numbers with a fixed number of significant bits

The finite values of a floating-point format, away from its smallest and its largest exponent, are the rational numbers
with so many significant bits; an operation gives the one next to the exact result, ties to even.

* **`roundEven`** — the nearest integer.
* **`roundBits`** — the nearest number with so many significant bits.
* **`abs_roundBits_sub_le`** — its relative error. -/

namespace SlimeReceiver

/-- The nearest integer, the even one of two. -/
def roundEven (x : ℚ) : ℤ :=
  if x - ⌊x⌋ < 1 / 2 ∨ x - ⌊x⌋ = 1 / 2 ∧ ⌊x⌋ % 2 = 0 then ⌊x⌋ else ⌊x⌋ + 1

theorem abs_roundEven_sub_le (x : ℚ) : |(roundEven x : ℚ) - x| ≤ 1 / 2 := by
  have hle := Int.floor_le x
  have hlt := Int.lt_floor_add_one x
  unfold roundEven
  split
  case isTrue h =>
    rw [abs_le]
    rcases h with h | ⟨h, -⟩ <;> constructor <;> linarith
  case isFalse h =>
    have hhalf : 1 / 2 ≤ x - ⌊x⌋ := not_lt.mp fun hsmall => h (.inl hsmall)
    rw [abs_le]
    push_cast
    constructor <;> linarith

theorem roundEven_zero : roundEven 0 = 0 := by
  unfold roundEven
  norm_num

/-- The place of the last of so many significant bits. -/
def lastPlace (bits : ℕ) (x : ℚ) : ℚ := 2 ^ (Int.log 2 |x| + 1 - bits)

/-- The nearest number with so many significant bits, the even one of two. -/
def roundBits (bits : ℕ) (x : ℚ) : ℚ := roundEven (x / lastPlace bits x) * lastPlace bits x

theorem lastPlace_pos (bits : ℕ) (x : ℚ) : 0 < lastPlace bits x := by
  unfold lastPlace
  positivity

/-- Rounding changes a number by no more than a part of `2 ^ bits`. -/
theorem abs_roundBits_sub_le (bits : ℕ) (x : ℚ) : |roundBits bits x - x| ≤ |x| / 2 ^ bits := by
  rcases eq_or_ne x 0 with rfl | hx
  · rw [roundBits, zero_div, roundEven_zero, Int.cast_zero, zero_mul, sub_zero, abs_zero, zero_div]
  have hpos := lastPlace_pos bits x
  have hunit : lastPlace bits x / 2 ≤ |x| / 2 ^ bits := by
    have hlog : (2 : ℚ) ^ Int.log 2 |x| ≤ |x| := Int.zpow_log_le_self (by decide) (abs_pos.mpr hx)
    have hplace : lastPlace bits x / 2 = 2 ^ Int.log 2 |x| / 2 ^ bits := by
      rw [lastPlace, zpow_sub₀ two_ne_zero, zpow_add_one₀ two_ne_zero, zpow_natCast]
      ring
    rw [hplace]
    exact div_le_div_of_nonneg_right hlog (by positivity)
  have herror : roundBits bits x - x =
      (roundEven (x / lastPlace bits x) - x / lastPlace bits x) * lastPlace bits x := by
    rw [roundBits, sub_mul, div_mul_cancel₀ _ hpos.ne']
  calc |roundBits bits x - x|
      = |(roundEven (x / lastPlace bits x) : ℚ) - x / lastPlace bits x| * lastPlace bits x := by
        rw [herror, abs_mul, abs_of_pos hpos]
    _ ≤ 1 / 2 * lastPlace bits x := mul_le_mul_of_nonneg_right (abs_roundEven_sub_le _) hpos.le
    _ = lastPlace bits x / 2 := by ring
    _ ≤ |x| / 2 ^ bits := hunit

end SlimeReceiver
