import Mathlib.Data.Int.Order.Basic
import Mathlib.Logic.Function.Iterate
import Mathlib.Tactic.Linarith
import Mathlib.Tactic.Ring

/-! # Moving averages in integer arithmetic

A value is moved towards a target by a share of the distance, and the quotient is rounded down.

* **`blend`** — one step, **`le_blend`** and **`blend_le`** — it stays between the value and the target.
* **`approach`** — what is left of a distance, **`abs_blend_sub_le`** and **`abs_blends_sub_le`**. -/

namespace SlimeReceiver

/-- The target with its weight and the value with the rest of the scale. -/
def blend (scale weight target x : ℤ) : ℤ := (weight * target + (scale - weight) * x) / scale

/-- What is left of a distance that is shortened by its share. -/
def approach (scale weight distance : ℤ) : ℤ := distance - weight * distance / scale

section Weights

variable {scale weight : ℤ} (hscale : 0 < scale)

include hscale

/-- The step, as what is added. -/
theorem blend_eq (target x : ℤ) : blend scale weight target x = x + weight * (target - x) / scale := by
  have hsum : weight * target + (scale - weight) * x = weight * (target - x) + scale * x := by ring
  rw [blend, hsum, Int.add_mul_ediv_left _ _ (ne_of_gt hscale), add_comm]

theorem approach_le (hweight : 0 ≤ weight) {distance : ℤ} (hdistance : 0 ≤ distance) :
    approach scale weight distance ≤ distance :=
  sub_le_self _ (Int.ediv_nonneg (mul_nonneg hweight hdistance) hscale.le)

variable (hle : weight ≤ scale)

include hle

/-- A longer distance stays longer. -/
theorem approach_mono {distance distance' : ℤ} (h : distance ≤ distance') :
    approach scale weight distance ≤ approach scale weight distance' := by
  -- the share of the difference is no more than the difference
  have hshare : weight * distance' ≤ weight * distance + scale * (distance' - distance) := by
    have hdiff : weight * (distance' - distance) ≤ scale * (distance' - distance) :=
      mul_le_mul_of_nonneg_right hle (sub_nonneg.mpr h)
    linarith [mul_sub weight distance' distance]
  have hquotient : weight * distance' / scale ≤ weight * distance / scale + (distance' - distance) := by
    rw [← Int.add_mul_ediv_left _ _ (ne_of_gt hscale)]
    exact Int.ediv_le_ediv hscale hshare
  unfold approach
  linarith

variable (hweight : 0 ≤ weight)

include hweight

theorem blend_le {target x hi : ℤ} (htarget : target ≤ hi) (hx : x ≤ hi) : blend scale weight target x ≤ hi := by
  have hbound : weight * target + (scale - weight) * x ≤ hi * scale := by
    have h₁ := mul_le_mul_of_nonneg_left htarget hweight
    have h₂ := mul_le_mul_of_nonneg_left hx (sub_nonneg.mpr hle)
    linarith [sub_mul scale weight hi, mul_comm hi scale]
  calc blend scale weight target x ≤ hi * scale / scale := Int.ediv_le_ediv hscale hbound
    _ = hi := Int.mul_ediv_cancel _ (ne_of_gt hscale)

theorem le_blend {target x lo : ℤ} (htarget : lo ≤ target) (hx : lo ≤ x) : lo ≤ blend scale weight target x := by
  have hbound : lo * scale ≤ weight * target + (scale - weight) * x := by
    have h₁ := mul_le_mul_of_nonneg_left htarget hweight
    have h₂ := mul_le_mul_of_nonneg_left hx (sub_nonneg.mpr hle)
    linarith [sub_mul scale weight lo, mul_comm lo scale]
  calc lo = lo * scale / scale := (Int.mul_ediv_cancel _ (ne_of_gt hscale)).symm
    _ ≤ blend scale weight target x := Int.ediv_le_ediv hscale hbound

/-- **A step shortens the distance to the target by its share**, rounded down on either side. -/
theorem abs_blend_sub_le (target x : ℤ) :
    |blend scale weight target x - target| ≤ approach scale weight |x - target| := by
  unfold approach
  rcases le_total target x with habove | hbelow
  · have hstays := le_blend hscale hle hweight (le_refl target) habove
    rw [abs_of_nonneg (sub_nonneg.mpr hstays), abs_of_nonneg (sub_nonneg.mpr habove), blend_eq hscale]
    -- rounding down adds to the share that is taken away
    have hneg : weight * (target - x) = -(weight * (x - target)) := by ring
    have hround : weight * (target - x) / scale ≤ -(weight * (x - target) / scale) := by
      rw [hneg]
      have hfloor := Int.ediv_mul_le (weight * (x - target)) (ne_of_gt hscale)
      have hup : -(weight * (x - target)) ≤ -(weight * (x - target) / scale) * scale := by linarith
      calc -(weight * (x - target)) / scale ≤ -(weight * (x - target) / scale) * scale / scale :=
            Int.ediv_le_ediv hscale hup
        _ = -(weight * (x - target) / scale) := Int.mul_ediv_cancel _ (ne_of_gt hscale)
    linarith
  · have hstays := blend_le hscale hle hweight (le_refl target) hbelow
    rw [abs_of_nonpos (sub_nonpos.mpr hstays), abs_of_nonpos (sub_nonpos.mpr hbelow), blend_eq hscale, neg_sub x,
      neg_sub]
    linarith

/-- A number of steps towards the same target. -/
theorem abs_blends_sub_le {target x bound : ℤ} (h : |x - target| ≤ bound) (n : ℕ) :
    |(blend scale weight target)^[n] x - target| ≤ (approach scale weight)^[n] bound := by
  induction n with
  | zero => exact h
  | succ n ih =>
    rw [Function.iterate_succ_apply', Function.iterate_succ_apply']
    exact (abs_blend_sub_le hscale hle hweight target _).trans (approach_mono hscale hle ih)

/-- Once the value is near the target, it stays near. -/
theorem abs_blends_sub_le_of_le {target x bound : ℤ} {m n : ℕ} (hmn : m ≤ n)
    (h : |(blend scale weight target)^[m] x - target| ≤ bound) :
    |(blend scale weight target)^[n] x - target| ≤ bound := by
  induction n, hmn using Nat.le_induction with
  | base => exact h
  | succ n _ ih =>
    rw [Function.iterate_succ_apply']
    exact ((abs_blend_sub_le hscale hle hweight target _).trans (approach_le hscale hweight (abs_nonneg _))).trans ih

end Weights

end SlimeReceiver
