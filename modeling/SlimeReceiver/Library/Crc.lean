import Mathlib.Logic.Function.Iterate
import Mathlib.Tactic.Common

/-! # Cyclic redundancy checks, most significant bit first

* **`polyStep`** — one step of the polynomial division, and **`polyStep_xor`**, its linearity.
* **`crcByteOf`**, **`crcOf`** — a byte is eight steps, and a message is its bytes.
* **`crcByteOf_split`** — a byte from the top byte of the remainder, the rest moves up. -/

namespace SlimeReceiver

variable {w : ℕ}

/-- One step of the division: the remainder moves up, and the polynomial is taken from it if a one falls out. -/
def polyStep (poly x : BitVec w) : BitVec w := if x.msb then x <<< 1 ^^^ poly else x <<< 1

/-- A number of steps. -/
def polySteps (poly : BitVec w) (n : ℕ) (x : BitVec w) : BitVec w := (polyStep poly)^[n] x

/-- A byte of the message. -/
def crcByteOf (poly crc : BitVec w) (byte : BitVec 8) : BitVec w :=
  polySteps poly 8 (crc ^^^ byte.setWidth w <<< (w - 8))

/-- The remainder of a message. -/
def crcOf (poly initial : BitVec w) (bytes : List (BitVec 8)) : BitVec w :=
  bytes.foldl (crcByteOf poly) initial

section Steps

variable (poly : BitVec w)

/-- A step is linear. -/
theorem polyStep_xor (x y : BitVec w) : polyStep poly (x ^^^ y) = polyStep poly x ^^^ polyStep poly y := by
  have hcancel : x <<< 1 ^^^ poly ^^^ (y <<< 1 ^^^ poly) = x <<< 1 ^^^ y <<< 1 := by
    rw [BitVec.xor_assoc, ← BitVec.xor_assoc poly, BitVec.xor_comm poly, BitVec.xor_assoc (y <<< 1),
      BitVec.xor_self, BitVec.xor_zero]
  unfold polyStep
  rw [BitVec.msb_xor, BitVec.shiftLeft_xor_distrib]
  cases x.msb <;> cases y.msb <;> simp only [Bool.xor_false, Bool.xor_true, Bool.not_false, Bool.not_true,
    Bool.false_eq_true, if_true, if_false]
  · exact BitVec.xor_assoc _ _ _
  · rw [BitVec.xor_assoc, BitVec.xor_assoc, BitVec.xor_comm poly]
  · exact hcancel.symm

theorem polySteps_xor (n : ℕ) (x y : BitVec w) :
    polySteps poly n (x ^^^ y) = polySteps poly n x ^^^ polySteps poly n y := by
  induction n generalizing x y with
  | zero => rfl
  | succ n ih =>
    rw [polySteps, Function.iterate_succ_apply, polyStep_xor]
    exact ih _ _

/-- As long as no one falls out, the remainder only moves up. -/
theorem polySteps_of_clear {n : ℕ} {x : BitVec w} (h : ∀ i < n, x.getMsbD i = false) :
    polySteps poly n x = x <<< n := by
  induction n with
  | zero => exact (BitVec.shiftLeft_zero x).symm
  | succ n ih =>
    have hbefore : polySteps poly n x = x <<< n := ih fun i hi => h i (Nat.lt_succ_of_lt hi)
    have hclear : (x <<< n).msb = false := by
      rw [BitVec.msb, BitVec.getMsbD_shiftLeft, Nat.zero_add]
      exact h n n.lt_succ_self
    rw [polySteps, Function.iterate_succ_apply', ← polySteps, hbefore, polyStep, hclear,
      if_neg Bool.false_ne_true, BitVec.shiftLeft_add]

/-- A byte of the message: eight steps of the top byte of the remainder with it, and the rest moved up. -/
theorem crcByteOf_split (hw : 8 ≤ w) (crc : BitVec w) (byte : BitVec 8) :
    crcByteOf poly crc byte =
      polySteps poly 8 (((crc >>> (w - 8)).setWidth 8 ^^^ byte).setWidth w <<< (w - 8)) ^^^ crc <<< 8 := by
  -- the remainder without its top byte
  set low : BitVec w := (crc <<< 8) >>> 8 with hlow
  have hbits : crc ^^^ byte.setWidth w <<< (w - 8) =
      ((crc >>> (w - 8)).setWidth 8 ^^^ byte).setWidth w <<< (w - 8) ^^^ low := by
    refine BitVec.eq_of_getLsbD_eq fun i hi => ?_
    simp only [hlow, BitVec.getLsbD_xor, BitVec.getLsbD_shiftLeft, BitVec.getLsbD_setWidth, BitVec.getLsbD_ushiftRight]
    by_cases htop : i < w - 8
    · simp [htop, hi, show 8 + i < w by omega]
    · simp [htop, hi, show i - (w - 8) < 8 by omega, show ¬8 + i < w by omega, show i - (w - 8) < w by omega,
        show w - 8 + (i - (w - 8)) = i by omega]
  have hclear : ∀ i < 8, low.getMsbD i = false := by
    intro i hi
    rw [hlow, BitVec.getMsbD_ushiftRight]
    simp [hi]
  have hup : low <<< 8 = crc <<< 8 := by
    refine BitVec.eq_of_getLsbD_eq fun i hi => ?_
    simp only [hlow, BitVec.getLsbD_shiftLeft, BitVec.getLsbD_ushiftRight]
    by_cases h : i < 8
    · simp [h]
    · simp [h, hi, show 8 + (i - 8) = i by omega]
  rw [crcByteOf, hbits, polySteps_xor, polySteps_of_clear poly hclear, hup]

end Steps

/-- The parts of a message one after the other. -/
theorem crcOf_append (poly initial : BitVec w) (bytes bytes' : List (BitVec 8)) :
    crcOf poly initial (bytes ++ bytes') = crcOf poly (crcOf poly initial bytes) bytes' := List.foldl_append

end SlimeReceiver
