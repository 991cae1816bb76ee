import Mathlib.Algebra.Order.Ring.Int
import Mathlib.Data.BitVec
import Mathlib.Tactic.Common

/-! # Single-precision numbers and their two decimals

A finite single-precision number is a whole multiple of `2 ^ (-149)`, so its value is an integer here. Written with two
decimals it is rounded to the nearest hundredth, ties to even, and keeps its sign, also before a zero.

* **`isFinite`**, **`isZero`**, **`value`** — a number, from its bits.
* **`roundHalfEven`** — rounding of a quotient.
* **`twoDecimals`**, **`decimalValue`** — what is written, and its value.
* **`decimalValue_mono`** — rounding keeps the order. -/

namespace SlimeReceiver

/-- The nearest integer to a quotient, the even one of two. -/
def roundHalfEven (n d : ℕ) : ℕ :=
  if d < 2 * (n % d) ∨ d = 2 * (n % d) ∧ n / d % 2 = 1 then n / d + 1 else n / d

theorem roundHalfEven_zero (d : ℕ) : roundHalfEven 0 d = 0 := by
  unfold roundHalfEven
  rw [Nat.zero_mod, Nat.zero_div, if_neg]
  rintro (h | ⟨-, h⟩)
  · exact absurd h (Nat.not_lt_zero d)
  · exact absurd h (by decide)

theorem roundHalfEven_mono {m n : ℕ} (d : ℕ) (h : m ≤ n) : roundHalfEven m d ≤ roundHalfEven n d := by
  have hquotient : m / d ≤ n / d := Nat.div_le_div_right h
  rcases hquotient.lt_or_eq with hlt | heq
  · calc roundHalfEven m d ≤ m / d + 1 := by unfold roundHalfEven; split <;> omega
      _ ≤ n / d := hlt
      _ ≤ roundHalfEven n d := by unfold roundHalfEven; split <;> omega
  · -- the quotients are the same, so the remainders are in order
    have hm := Nat.div_add_mod m d
    have hn := Nat.div_add_mod n d
    unfold roundHalfEven
    rw [heq] at hm ⊢
    split
    case isTrue hup =>
      have hup' : d < 2 * (n % d) ∨ d = 2 * (n % d) ∧ n / d % 2 = 1 := by omega
      rw [if_pos hup']
    case isFalse => split <;> omega

namespace Binary32

/-- Not infinite and not NaN. -/
def isFinite (x : BitVec 32) : Bool := x.extractLsb' 23 8 != 0xff

/-- A zero of either sign. -/
def isZero (x : BitVec 32) : Bool := x.extractLsb' 0 31 == 0

/-- The absolute value of a finite number, in units of `2 ^ (-149)`. -/
def magnitude (x : BitVec 32) : ℕ :=
  let exponent := (x.extractLsb' 23 8).toNat
  let fraction := (x.extractLsb' 0 23).toNat
  if exponent = 0 then fraction else (2 ^ 23 + fraction) * 2 ^ (exponent - 1)

/-- A finite number, in units of `2 ^ (-149)`. -/
def value (x : BitVec 32) : ℤ := if x.msb then -(magnitude x : ℤ) else magnitude x

/-- The nearest number of hundredths. -/
def hundredths (x : BitVec 32) : ℕ := roundHalfEven (100 * magnitude x) (2 ^ 149)

/-- A number with two decimals: a sign, and the number of hundredths. -/
def twoDecimals (x : BitVec 32) : Bool × ℕ := (x.msb, hundredths x)

/-- The value of what was written, in hundredths. -/
def decimalValue (text : Bool × ℕ) : ℤ := if text.1 then -(text.2 : ℤ) else text.2

variable {x y : BitVec 32}

theorem hundredths_mono (h : magnitude x ≤ magnitude y) : hundredths x ≤ hundredths y :=
  roundHalfEven_mono _ (Nat.mul_le_mul_left _ h)

theorem hundredths_zero (h : magnitude x = 0) : hundredths x = 0 := by
  rw [hundredths, h, Nat.mul_zero, roundHalfEven_zero]

theorem decimalValue_mono (h : value x ≤ value y) :
    decimalValue (twoDecimals x) ≤ decimalValue (twoDecimals y) := by
  unfold value at h
  unfold decimalValue twoDecimals
  cases hx : x.msb <;> cases hy : y.msb <;> rw [hx, hy] at h
  case false.false => exact Int.ofNat_le.mpr (hundredths_mono (Int.ofNat_le.mp h))
  case true.true =>
    exact Int.neg_le_neg (Int.ofNat_le.mpr (hundredths_mono (Int.ofNat_le.mp (Int.neg_le_neg_iff.mp h))))
  case true.false =>
    exact (Int.neg_nonpos_of_nonneg (Int.natCast_nonneg _)).trans (Int.natCast_nonneg _)
  case false.true =>
    have hboth : (magnitude x : ℤ) ≤ -(magnitude y : ℤ) := h
    have hxzero : hundredths x = 0 := hundredths_zero (by omega)
    have hyzero : hundredths y = 0 := hundredths_zero (by omega)
    rw [hxzero, hyzero]
    exact le_refl _

/-- Two numbers that are written differently but with the same value are written as zeros of both signs. -/
theorem zero_of_decimalValue_eq {a b : Bool × ℕ} (hne : a ≠ b) (h : decimalValue a = decimalValue b) :
    a = (false, 0) ∧ b = (true, 0) ∨ a = (true, 0) ∧ b = (false, 0) := by
  obtain ⟨sign, n⟩ := a
  obtain ⟨sign', n'⟩ := b
  unfold decimalValue at h
  cases sign <;> cases sign'
  case false.false =>
    have hsame : n = n' := Int.ofNat_inj.mp h
    exact absurd (congrArg _ hsame) hne
  case true.true =>
    have hsame : n = n' := Int.ofNat_inj.mp (Int.neg_inj.mp h)
    exact absurd (congrArg _ hsame) hne
  case false.true =>
    have hsum : (n : ℤ) = -(n' : ℤ) := h
    obtain ⟨rfl, rfl⟩ : n = 0 ∧ n' = 0 := by omega
    exact Or.inl ⟨rfl, rfl⟩
  case true.false =>
    have hsum : -(n : ℤ) = n' := h
    obtain ⟨rfl, rfl⟩ : n = 0 ∧ n' = 0 := by omega
    exact Or.inr ⟨rfl, rfl⟩

end Binary32

end SlimeReceiver
