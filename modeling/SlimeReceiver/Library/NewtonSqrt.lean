import Mathlib.Data.Nat.Sqrt
import Mathlib.Algebra.Order.Ring.Basic
import Mathlib.Tactic.Linarith

/-! # Square roots by Newton's iteration

* **`newtonStep`** — the mean of a guess and of the quotient by it.
* **`sqrt_le_newtonStep`** — a step never falls below the root.
* **`le_sqrt_of_le_newtonStep`** — a guess that the step does not lower is no more than the root. -/

namespace SlimeReceiver

/-- The next guess. -/
def newtonStep (n x : ℕ) : ℕ := (x + n / x) / 2

variable {n x : ℕ}

/-- Twice the root is at most the guess and the quotient together. -/
theorem sqrt_le_newtonStep (n : ℕ) (hx : 0 < x) : Nat.sqrt n ≤ newtonStep n x := by
  set s := Nat.sqrt n
  have hroot : s * s ≤ n := Nat.sqrt_le n
  rw [newtonStep, Nat.le_div_iff_mul_le Nat.zero_lt_two]
  rcases le_total (s * 2) x with hsmall | hlarge
  · exact hsmall.trans (Nat.le_add_right _ _)
  · -- the mean of two numbers is no less than the root of their product
    obtain ⟨d, hd⟩ := Nat.exists_eq_add_of_le hlarge
    have hproduct : d * x ≤ s * s := by
      have hmean : 4 * d * x ≤ (d + x) ^ 2 := four_mul_le_sq_add d x
      rw [add_comm d, ← hd, sq, Nat.mul_mul_mul_comm] at hmean
      linarith
    have hquotient : d ≤ n / x := (Nat.le_div_iff_mul_le hx).mpr (hproduct.trans hroot)
    omega

/-- The iteration stops at the root. -/
theorem le_sqrt_of_le_newtonStep (hx : 0 < x) (h : x ≤ newtonStep n x) : x ≤ Nat.sqrt n := by
  rw [newtonStep, Nat.le_div_iff_mul_le Nat.zero_lt_two] at h
  have hquotient : x ≤ n / x := by omega
  exact Nat.le_sqrt.mpr ((Nat.le_div_iff_mul_le hx).mp hquotient)

end SlimeReceiver
