import Mathlib.Data.Set.Insert
import Mathlib.Data.BitVec
import Mathlib.Data.Int.Basic
import Mathlib.Tactic.Common
import Mathlib.Tactic.Positivity

/-! # Serial numbers and replay windows

A sender numbers its messages in order and transmits the low bits of the number. A receiver places a
received number next to the newest one it knows, by the sign of their modular difference, and keeps
a bitmap of the last numbers it accepted.

* **`serial w p`** — the `w` transmitted bits of place `p`.
* **`serial_sub_toInt`**, **`serial_sub_toNat`** — modular differences are differences of places.
* **`Represents seen head A`** — bit `i` of `seen` says whether place `head - i` is in `A`, with a
  rule for each operation on a bitmap. -/

namespace SlimeReceiver

/-! ## Serial numbers -/

/-- The transmitted bits of a place. -/
def serial (w : ℕ) (p : ℤ) : BitVec w := BitVec.ofInt w p

section Serial

variable {w : ℕ} {p q : ℤ}

/-- The signed difference of two numbers is that of their places, folded into the signed range. -/
theorem serial_sub_toInt_eq_bmod (p q : ℤ) :
    (serial w p - serial w q).toInt = (p - q).bmod (2 ^ w) := by
  rw [serial, serial, BitVec.toInt_sub, BitVec.toInt_ofInt, BitVec.toInt_ofInt,
    Int.bmod_sub_bmod, Int.sub_bmod_bmod]

/-- Within half the range the signed difference of two numbers is the difference of the places. -/
theorem serial_sub_toInt (hlow : -2 ^ w ≤ 2 * (p - q)) (hhigh : 2 * (p - q) < 2 ^ w) :
    (serial w p - serial w q).toInt = p - q := by
  rw [serial_sub_toInt_eq_bmod]
  exact Int.bmod_eq_of_le_mul_two (by push_cast; omega) (by push_cast; omega)

/-- The unsigned difference of two numbers is that of their places, modulo the range. -/
theorem serial_sub_toNat (p q : ℤ) :
    ((serial w p - serial w q).toNat : ℤ) = (p - q) % 2 ^ w := by
  have hsub : serial w p - serial w q = BitVec.ofInt w (p - q) := by
    rw [serial, serial, BitVec.sub_eq_add_neg, ← BitVec.ofInt_neg, ← BitVec.ofInt_add, Int.sub_eq_add_neg]
  rw [hsub, BitVec.toNat_ofInt]
  have hpos : (0 : ℤ) < 2 ^ w := by positivity
  have hnonneg := Int.emod_nonneg (p - q) hpos.ne'
  push_cast
  rw [Int.toNat_of_nonneg hnonneg]

/-- Moving a place moves its number. -/
theorem serial_add (p d : ℤ) : serial w (p + d) = serial w p + serial w d := BitVec.ofInt_add ..

theorem serial_sub (p d : ℤ) : serial w (p - d) = serial w p - serial w d := by
  rw [serial, serial, serial, BitVec.sub_eq_add_neg, ← BitVec.ofInt_neg, ← BitVec.ofInt_add,
    Int.sub_eq_add_neg]

end Serial

/-! ## Bitmaps -/

/-- Bit `i` of `seen` says whether place `head - i` is in `A`. -/
def Represents {n : ℕ} (seen : BitVec n) (head : ℤ) (A : Set ℤ) : Prop :=
  ∀ i < n, seen.getLsbD i = true ↔ head - i ∈ A

namespace Represents

variable {n : ℕ} {seen : BitVec n} {head : ℤ} {A : Set ℤ}

theorem getLsbD_one_of_lt {i : ℕ} (hi : i < n) : (1 : BitVec n).getLsbD i = decide (i = 0) := by
  have hpos : 0 < n := by omega
  show (1#n).getLsbD i = _
  rw [BitVec.getLsbD_one, decide_eq_true hpos, Bool.true_and]

/-- A fresh bitmap knows its head. -/
theorem anchor (head : ℤ) : Represents (1 : BitVec n) head {head} := by
  intro i hi
  rw [getLsbD_one_of_lt hi, decide_eq_true_eq, Set.mem_singleton_iff]
  omega

/-- Moving the head forward shifts the bitmap, or clears it when nothing of it is left. -/
theorem advance (h : Represents seen head A) (hmax : ∀ a ∈ A, a ≤ head) {k : ℕ} (hk : 0 < k) :
    Represents (if n ≤ k then 1 else seen <<< k ||| (1 : BitVec n)) (head + k)
      (insert (head + k) A) := by
  intro i hi
  have hnewest : head + k - i = head + k ↔ i = 0 := by omega
  rw [Set.mem_insert_iff, hnewest]
  by_cases hclear : n ≤ k
  · -- Everything the bitmap knew lies behind the new window.
    have hgone : head + k - i ∉ A := fun hmem => by
      have := hmax _ hmem
      omega
    rw [if_pos hclear, getLsbD_one_of_lt hi, decide_eq_true_eq, or_iff_left hgone]
  · rw [if_neg hclear, BitVec.getLsbD_or, BitVec.getLsbD_shiftLeft, getLsbD_one_of_lt hi]
    by_cases hbelow : i < k
    · have hgone : head + k - i ∉ A := fun hmem => by
        have := hmax _ hmem
        omega
      simp [hbelow, hgone]
    · have hplace : head + k - i = head - ((i - k : ℕ) : ℤ) := by omega
      have hold := h (i - k) (by omega)
      have hnotNewest : i ≠ 0 := by omega
      rw [hplace, ← hold, decide_eq_true hi, decide_eq_false hbelow, decide_eq_false hnotNewest,
        Bool.not_false, Bool.true_and, Bool.true_and, Bool.or_false, or_iff_right hnotNewest]

/-- Setting a bit adds its place. -/
theorem mark (h : Represents seen head A) {k : ℕ} (hk : k < n) :
    Represents (seen ||| (1 : BitVec n) <<< k) head (insert (head - k) A) := by
  intro i hi
  have hplace : head - i = head - k ↔ i = k := by omega
  rw [Set.mem_insert_iff, hplace, ← h i hi, BitVec.getLsbD_or, BitVec.getLsbD_shiftLeft]
  by_cases hsame : i = k
  · subst hsame
    have hset : (1 : BitVec n).getLsbD (i - i) = true := by
      rw [Nat.sub_self, getLsbD_one_of_lt (by omega), decide_eq_true rfl]
    rw [hset, decide_eq_true hi, decide_eq_false (lt_irrefl i), Bool.not_false, Bool.true_and,
      Bool.true_and, Bool.or_true]
    exact iff_of_true rfl (.inl rfl)
  · have hother : (decide (i < n) && !decide (i < k) && (1 : BitVec n).getLsbD (i - k)) = false := by
      by_cases hlow : i < k
      · simp [hlow]
      · rw [getLsbD_one_of_lt (by omega), decide_eq_false (show ¬i - k = 0 by omega), Bool.and_false]
    rw [hother, Bool.or_false, or_iff_right hsame]

end Represents

end SlimeReceiver
