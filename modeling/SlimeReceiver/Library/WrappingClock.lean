import Mathlib.Algebra.Group.Nat.Defs
import Mathlib.Algebra.Order.Group.Int
import Mathlib.Data.Int.Basic
import Mathlib.Tactic.Common

/-! # A 32-bit reading of an unbounded clock

Firmware keeps an uptime that never goes back and works with its low 32 bits. Two readings are
compared by the sign of their modular difference, which agrees with the order of the clock
values as long as they lie less than `2 ^ 31` apart and is reversed beyond that.

* **`stamp t`** — the 32-bit reading of clock value `t`.
* **`signedDistance a b`** — `(int32_t)(a - b)`.
* **`signedDistance_stamp`** — within half the range the signed distance is the true one.
* **`elapsed now since`** — `(uint32_t)(now - since)`, the true time modulo `2 ^ 32`. -/

namespace SlimeReceiver

/-- The low 32 bits of a clock value. -/
def stamp (t : ℕ) : BitVec 32 := BitVec.ofNat 32 t

/-- The modular difference of two readings, read as a signed number: `(int32_t)(a - b)`. -/
def signedDistance (a b : BitVec 32) : ℤ := (a - b).toInt

/-- Advancing a clock value advances its reading. -/
theorem stamp_add (t d : ℕ) : stamp (t + d) = stamp t + BitVec.ofNat 32 d :=
  BitVec.ofNat_add t d

/-- The signed distance of two readings is their true distance, folded into the signed range. -/
theorem signedDistance_stamp_eq_bmod (a b : ℕ) :
    signedDistance (stamp a) (stamp b) = ((a : ℤ) - b).bmod (2 ^ 32) := by
  rw [signedDistance, stamp, stamp, BitVec.toInt_sub, BitVec.toInt_ofNat', BitVec.toInt_ofNat',
    Int.bmod_sub_bmod, Int.sub_bmod_bmod]

/-- Within half the range the signed distance of two readings is the true distance. -/
theorem signedDistance_stamp {a b : ℕ} (hlow : -2 ^ 31 ≤ (a : ℤ) - b)
    (hhigh : (a : ℤ) - b < 2 ^ 31) : signedDistance (stamp a) (stamp b) = (a : ℤ) - b := by
  rw [signedDistance_stamp_eq_bmod]
  exact Int.bmod_eq_of_le_mul_two (by omega) (by omega)

/-- The signed distance is negative exactly when the true distance, modulo the range of the
reading, lies in its upper half. -/
theorem signedDistance_stamp_neg_iff (a b : ℕ) :
    signedDistance (stamp a) (stamp b) < 0 ↔ 2 ^ 31 ≤ ((a : ℤ) - b) % 2 ^ 32 := by
  rw [signedDistance_stamp_eq_bmod, Int.bmod_def]
  split <;> omega

/-- A reading has no distance from itself. -/
@[simp] theorem signedDistance_self (a : BitVec 32) : signedDistance a a = 0 := by
  simp [signedDistance]

/-- The signed distance stays inside the signed 32-bit range. -/
theorem signedDistance_lt (a b : BitVec 32) : signedDistance a b < 2 ^ 31 := by
  have h := BitVec.toInt_lt (x := a - b)
  simpa [signedDistance] using h

/-- The modular difference of two readings, read as an unsigned number: `(uint32_t)(now - since)`. -/
def elapsed (now since : BitVec 32) : ℕ := (now - since).toNat

/-- What is elapsed between two readings is the true time between them, modulo the range. -/
theorem elapsed_stamp (now since : ℕ) :
    (elapsed (stamp now) (stamp since) : ℤ) = ((now : ℤ) - since) % 2 ^ 32 := by
  rw [elapsed, stamp, stamp, BitVec.toNat_sub, BitVec.toNat_ofNat, BitVec.toNat_ofNat]
  omega

/-- Between two readings in order no more is elapsed than the true time. -/
theorem elapsed_stamp_le {now since : ℕ} (h : since ≤ now) :
    elapsed (stamp now) (stamp since) ≤ now - since := by
  have hmod := elapsed_stamp now since
  omega

/-- Between two readings in order and less than the range apart the true time is elapsed. -/
theorem elapsed_stamp_eq {now since : ℕ} (h : since ≤ now) (hrange : now - since < 2 ^ 32) :
    elapsed (stamp now) (stamp since) = now - since := by
  have hmod := elapsed_stamp now since
  rw [Int.emod_eq_of_lt (by omega) (by omega)] at hmod
  omega

end SlimeReceiver
