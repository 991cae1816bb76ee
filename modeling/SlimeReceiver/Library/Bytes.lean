import Mathlib.Tactic.Common
import SlimeReceiver.Library.Evaluation

/-! # Bytes of frames

* **`be16`**, **`be32`**, **`le32`** — numbers from bytes; **`be16Bytes`**, **`be32Bytes`**,
  **`le32Bytes`** — their bytes.
* **`crc8Ccitt`** — the checksum at the end of a frame.
* **`writeBytes`** — bytes written into a buffer. -/

namespace SlimeReceiver

/-- Membership in a list of bytes is decided by comparing them. -/
instance lawfulBEqByte : LawfulBEq (BitVec 8) := inferInstance

/-- `sys_get_be16`. -/
def be16 (high low : BitVec 8) : BitVec 16 := high ++ low

/-- `sys_get_be32`. -/
def be32 (b₀ b₁ b₂ b₃ : BitVec 8) : BitVec 32 := b₀ ++ b₁ ++ b₂ ++ b₃

/-- `sys_get_le32`. -/
def le32 (b₀ b₁ b₂ b₃ : BitVec 8) : BitVec 32 := b₃ ++ b₂ ++ b₁ ++ b₀

/-- `sys_put_be16`. -/
def be16Bytes (x : BitVec 16) : List (BitVec 8) := [(x >>> 8).setWidth 8, x.setWidth 8]

/-- A number has the bytes it was read from. -/
theorem be16Bytes_be16 (high low : BitVec 8) : be16Bytes (be16 high low) = [high, low] := by
  rw [be16Bytes, be16]
  refine congrArg₂ List.cons ?_ (congrArg₂ List.cons ?_ rfl)
  · apply BitVec.eq_of_getLsbD_eq
    intro i hi
    rw [BitVec.getLsbD_setWidth, BitVec.getLsbD_ushiftRight, BitVec.getLsbD_append]
    simp [hi]
  · apply BitVec.eq_of_getLsbD_eq
    intro i hi
    rw [BitVec.getLsbD_setWidth, BitVec.getLsbD_append]
    simp [hi]

/-- A number is read as it was written. -/
theorem be16_be16Bytes (x : BitVec 16) : be16 ((x >>> 8).setWidth 8) (x.setWidth 8) = x := by
  refine BitVec.eq_of_getLsbD_eq fun i hi => ?_
  rw [be16, BitVec.getLsbD_append]
  by_cases hlow : i < 8
  · simp [hlow]
  · simp [hlow, show i - 8 < 8 by omega, show 8 + (i - 8) = i by omega]

/-- `sys_put_be32`. -/
def be32Bytes (x : BitVec 32) : List (BitVec 8) :=
  [(x >>> 24).setWidth 8, (x >>> 16).setWidth 8, (x >>> 8).setWidth 8, x.setWidth 8]

/-- A number is read as it was written. -/
theorem be32_be32Bytes (x : BitVec 32) :
    be32 ((x >>> 24).setWidth 8) ((x >>> 16).setWidth 8) ((x >>> 8).setWidth 8) (x.setWidth 8) = x := by
  refine BitVec.eq_of_getLsbD_eq fun i hi => ?_
  rw [be32, BitVec.getLsbD_append, BitVec.getLsbD_append, BitVec.getLsbD_append]
  by_cases h₀ : i < 8
  · simp [h₀]
  · by_cases h₁ : i - 8 < 8
    · simp [h₀, h₁, show 8 + (i - 8) = i by omega]
    · by_cases h₂ : i - 8 - 8 < 8
      · simp [h₀, h₁, h₂, show 16 + (i - 8 - 8) = i by omega]
      · simp [h₀, h₁, h₂, show i - 8 - 8 - 8 < 8 by omega, show 24 + (i - 8 - 8 - 8) = i by omega]

/-- `sys_put_le32`. -/
def le32Bytes (x : BitVec 32) : List (BitVec 8) :=
  [x.setWidth 8, (x >>> 8).setWidth 8, (x >>> 16).setWidth 8, (x >>> 24).setWidth 8]

/-- A bit of the polynomial division of `crc8_ccitt`. -/
def crcBit (crc : BitVec 8) : BitVec 8 := if crc.msb then crc <<< 1 ^^^ 0x07 else crc <<< 1

/-- A byte of it. -/
def crcByte (crc byte : BitVec 8) : BitVec 8 := (List.range 8).foldl (fun crc _ => crcBit crc) (crc ^^^ byte)

/-- `crc8_ccitt`. -/
def crc8Ccitt (initial : BitVec 8) (bytes : List (BitVec 8)) : BitVec 8 := bytes.foldl crcByte initial

/-- The checksum compared with a value, evaluated after every byte. -/
def crcTest (value crc : BitVec 8) : List (BitVec 8) → Bool
  | [] => crc == value
  | byte :: bytes => evalWord (crcByte crc byte) fun crc => crcTest value crc bytes

theorem crc8Ccitt_of_test {value initial : BitVec 8} {bytes : List (BitVec 8)}
    (h : crcTest value initial bytes = true) : crc8Ccitt initial bytes = value := by
  induction bytes generalizing initial with
  | nil => exact eq_of_beq h
  | cons byte bytes ih =>
    rw [crcTest, evalWord_eq] at h
    exact ih h

/-! ## Buffers -/

/-- Bytes written into a buffer from a place on. -/
def writeBytes (buffer : ℕ → BitVec 8) (start : ℕ) (bytes : List (BitVec 8)) : ℕ → BitVec 8 :=
  fun k => if start ≤ k ∧ k < start + bytes.length then bytes.getD (k - start) 0 else buffer k

section Writes

variable {buffer buffer' : ℕ → BitVec 8} {start k : ℕ} {bytes : List (BitVec 8)}

theorem writeBytes_outside (h : ¬ (start ≤ k ∧ k < start + bytes.length)) :
    writeBytes buffer start bytes k = buffer k := if_neg h

/-- What is written does not depend on what was there. -/
theorem writeBytes_congr (h : (start ≤ k ∧ k < start + bytes.length) ∨ buffer k = buffer' k) :
    writeBytes buffer start bytes k = writeBytes buffer' start bytes k := by
  unfold writeBytes
  split
  case isTrue => rfl
  case isFalse hout => exact h.resolve_left hout

end Writes

end SlimeReceiver
