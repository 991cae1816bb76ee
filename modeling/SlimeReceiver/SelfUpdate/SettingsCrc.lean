import SlimeReceiver.Library.Crc
import SlimeReceiver.SelfUpdate.Contents

/-! # The checksum in the bootloader settings

Before the image is copied over the application, `rcv_ota_do_activate` reads it back in pieces of 256 bytes and puts
its CRC-16 into the settings the bootloader checks it with.

* **`settingsCrcByte`** — the five assignments for a byte, with the promotion to `int` and the truncation of each.
* **`settingsCrcFrom`** — the loop over the pieces, and **`prepareSettings`** with the settings it fills in.
* **`crc16Ccitt`** — the checksum bit by bit.
* **`settings_crc16`** — the settings hold the checksum of the whole image, unless a read fails. -/

namespace SlimeReceiver.SelfUpdate

/-! ## The code -/

/-- An operand of 16 bits as an `int`. -/
def promote (x : BitVec 16) : BitVec 32 := x.setWidth 32

/-- The body of the loop over a piece. -/
def settingsCrcByte (crc16 : BitVec 16) (byte : BitVec 8) : BitVec 16 :=
  let swapped := (((promote crc16 >>> 8).setWidth 8).setWidth 32 ||| promote crc16 <<< 8).setWidth 16
  let mixed := (promote swapped ^^^ byte.setWidth 32).setWidth 16
  let first := (promote mixed ^^^ ((promote mixed &&& 0xFF).setWidth 8).setWidth 32 >>> 4).setWidth 16
  let second := (promote first ^^^ promote first <<< 8 <<< 4).setWidth 16
  (promote second ^^^ (promote second &&& 0xFF) <<< 4 <<< 1).setWidth 16

/-- `flash_read`, which fails at some addresses. -/
def flashRead (fails : ℕ → Bool) (flash : ℕ → BitVec 8) (addr len : ℕ) : Option (List (BitVec 8)) :=
  if fails addr then none else some (readFlash flash addr len)

/-- `sizeof(buf)`. -/
def settingsPiece : ℕ := 256

/-- The loop over the staging area; `none` is a read error. -/
def settingsCrcFrom (read : ℕ → ℕ → Option (List (BitVec 8))) (addr remaining : ℕ) (crc16 : BitVec 16) :
    Option (BitVec 16) :=
  if remaining = 0 then some crc16
  else
    let chunk := min remaining settingsPiece
    (read addr chunk).bind fun buf =>
      settingsCrcFrom read (addr + chunk) (remaining - chunk) (buf.foldl settingsCrcByte crc16)
termination_by remaining
decreasing_by
  have hpiece : 0 < settingsPiece := by decide
  omega

/-- The fields of `struct bootloader_settings` that are filled in; the others are zero. -/
structure BootloaderSettings where
  bank0 : BitVec 16
  bank0Crc : BitVec 16
  bank1 : BitVec 16
  bank0Size : ℕ
  deriving DecidableEq

/-- `BANK_VALID_APP`. -/
def bankValidApp : BitVec 16 := 0x01

/-- `BANK_INVALID_APP`. -/
def bankInvalidApp : BitVec 16 := 0xFF

/-- The part of `rcv_ota_do_activate` that prepares the settings; `none` ends it with `OTA_STATUS_FLASH_ERROR`. -/
def prepareSettings (read : ℕ → ℕ → Option (List (BitVec 8))) (stagingBase imageSize : ℕ) :
    Option BootloaderSettings :=
  (settingsCrcFrom read stagingBase imageSize 0xFFFF).map fun crc16 =>
    ⟨bankValidApp, crc16, bankInvalidApp, imageSize⟩

/-! ## The checksum -/

/-- CRC-16-CCITT: the polynomial 0x1021 from 0xFFFF on, not reflected, and nothing done to the remainder. -/
def crc16Ccitt (bytes : List (BitVec 8)) : BitVec 16 := crcOf 0x1021 0xFFFF bytes

/-- The last three assignments. -/
def crcMix (x : BitVec 16) : BitVec 16 :=
  let first := x ^^^ (x &&& 0xFF) >>> 4
  let second := first ^^^ first <<< 12
  second ^^^ (second &&& 0xFF) <<< 5

/-- What is mixed with a linear image of it stays linear. -/
theorem xor_linear {f : BitVec 16 → BitVec 16} (hf : ∀ x y, f (x ^^^ y) = f x ^^^ f y) (x y : BitVec 16) :
    x ^^^ y ^^^ f (x ^^^ y) = x ^^^ f x ^^^ (y ^^^ f y) := by
  rw [hf, BitVec.xor_assoc, BitVec.xor_assoc, ← BitVec.xor_assoc y, BitVec.xor_comm y, BitVec.xor_assoc (f x)]

theorem and_xor_mask {w : ℕ} (x y mask : BitVec w) : (x ^^^ y) &&& mask = x &&& mask ^^^ y &&& mask := by
  refine BitVec.eq_of_getLsbD_eq fun i _ => ?_
  simp only [BitVec.getLsbD_and, BitVec.getLsbD_xor]
  cases mask.getLsbD i <;> simp

theorem getLsbD_lowByte {w : ℕ} (hw : 8 ≤ w) (i : ℕ) : (0xFF : BitVec w).getLsbD i = decide (i < 8) := by
  have hbits : Nat.testBit 255 i = decide (i < 8) := Nat.testBit_two_pow_sub_one 8 i
  rw [show (0xFF : BitVec w) = BitVec.ofNat w 255 from rfl, BitVec.getLsbD_ofNat, hbits]
  by_cases h : i < 8
  · simp [h, show i < w by omega]
  · simp [h]

theorem crcMix_xor (x y : BitVec 16) : crcMix (x ^^^ y) = crcMix x ^^^ crcMix y := by
  have hfirst := xor_linear (f := fun x => (x &&& 0xFF) >>> 4) fun x y => by
    rw [and_xor_mask, BitVec.ushiftRight_xor_distrib]
  have hsecond := xor_linear (f := fun x => x <<< 12) fun x y => BitVec.shiftLeft_xor_distrib x y 12
  have hthird := xor_linear (f := fun x => (x &&& 0xFF) <<< 5) fun x y => by
    rw [and_xor_mask, BitVec.shiftLeft_xor_distrib]
  simp only [crcMix]
  rw [hfirst, hsecond, hthird]

/-- A byte by the table of the bitwise steps. -/
theorem crcMix_byte : ∀ t : BitVec 8, crcMix (t.setWidth 16) = polySteps 0x1021 8 (t.setWidth 16 <<< 8) := by
  decide +kernel

/-- What has no low byte is left alone. -/
theorem crcMix_high (x : BitVec 16) : crcMix (x <<< 8) = x <<< 8 := by
  have hlow : x <<< 8 &&& 0xFF = 0#16 := by
    refine BitVec.eq_of_getLsbD_eq fun i _ => ?_
    rw [BitVec.getLsbD_and, BitVec.getLsbD_shiftLeft, getLsbD_lowByte (by decide), BitVec.getLsbD_zero]
    by_cases h : i < 8 <;> simp [h]
  have hup : x <<< 8 <<< 12 = 0#16 := by
    rw [← BitVec.shiftLeft_add]
    exact BitVec.shiftLeft_eq_zero (by decide)
  simp only [crcMix, hlow, hup, BitVec.zero_ushiftRight, BitVec.zero_shiftLeft, BitVec.xor_zero]

/-- The bytes change places. -/
theorem swap_eq (x : BitVec 16) :
    (((promote x >>> 8).setWidth 8).setWidth 32 ||| promote x <<< 8).setWidth 16 =
      ((x >>> 8).setWidth 8).setWidth 16 ^^^ x <<< 8 := by
  refine BitVec.eq_of_getLsbD_eq fun i hi => ?_
  simp only [promote, BitVec.getLsbD_setWidth, BitVec.getLsbD_or, BitVec.getLsbD_shiftLeft, BitVec.getLsbD_ushiftRight,
    BitVec.getLsbD_xor]
  by_cases h : i < 8
  · simp [h, hi, show i < 32 by omega, show 8 + i < 32 by omega]
  · simp [h, hi, show i < 32 by omega, show i - 8 < 32 by omega]

/-- The low byte is mixed in further down. -/
theorem mixDown_eq (x : BitVec 16) :
    (promote x ^^^ ((promote x &&& 0xFF).setWidth 8).setWidth 32 >>> 4).setWidth 16 = x ^^^ (x &&& 0xFF) >>> 4 := by
  refine BitVec.eq_of_getLsbD_eq fun i hi => ?_
  have hlow := getLsbD_lowByte (w := 32) (by decide) (4 + i)
  have hlow' := getLsbD_lowByte (w := 16) (by decide) (4 + i)
  simp only [promote, BitVec.getLsbD_setWidth, BitVec.getLsbD_xor, BitVec.getLsbD_and, BitVec.getLsbD_ushiftRight, hlow,
    hlow']
  by_cases h : 4 + i < 8
  · simp [h, hi, show i < 32 by omega, show 4 + i < 32 by omega]
  · simp [h, hi, show i < 32 by omega]

/-- Nothing that is shifted out comes back. -/
theorem mixUp_eq (x : BitVec 16) : (promote x ^^^ promote x <<< 8 <<< 4).setWidth 16 = x ^^^ x <<< 12 := by
  rw [← BitVec.shiftLeft_add]
  refine BitVec.eq_of_getLsbD_eq fun i hi => ?_
  simp only [promote, BitVec.getLsbD_setWidth, BitVec.getLsbD_xor, BitVec.getLsbD_shiftLeft]
  simp [hi, show i < 32 by omega, show i - 12 < 32 by omega]

theorem mixLow_eq (x : BitVec 16) :
    (promote x ^^^ (promote x &&& 0xFF) <<< 4 <<< 1).setWidth 16 = x ^^^ (x &&& 0xFF) <<< 5 := by
  rw [← BitVec.shiftLeft_add]
  refine BitVec.eq_of_getLsbD_eq fun i hi => ?_
  have hlow := getLsbD_lowByte (w := 32) (by decide) (i - 5)
  have hlow' := getLsbD_lowByte (w := 16) (by decide) (i - 5)
  simp only [promote, BitVec.getLsbD_setWidth, BitVec.getLsbD_xor, BitVec.getLsbD_and, BitVec.getLsbD_shiftLeft,
    Nat.reduceAdd, hlow, hlow']
  simp [hi, show i < 32 by omega, show i - 5 < 32 by omega]

/-- The promotions and truncations lose nothing. -/
theorem settingsCrcByte_eq (crc16 : BitVec 16) (byte : BitVec 8) : settingsCrcByte crc16 byte =
    crcMix (((crc16 >>> 8).setWidth 8 ^^^ byte).setWidth 16 ^^^ crc16 <<< 8) := by
  have hmixed : (promote (((crc16 >>> 8).setWidth 8).setWidth 16 ^^^ crc16 <<< 8) ^^^ byte.setWidth 32).setWidth 16 =
      ((crc16 >>> 8).setWidth 8 ^^^ byte).setWidth 16 ^^^ crc16 <<< 8 := by
    refine BitVec.eq_of_getLsbD_eq fun i hi => ?_
    simp only [promote, BitVec.getLsbD_setWidth, BitVec.getLsbD_xor]
    by_cases h : i < 8
    · simp [h, hi, show i < 32 by omega]
    · simp [h, hi, show i < 32 by omega, BitVec.getLsbD_of_ge byte i (not_lt.mp h)]
  simp only [settingsCrcByte, swap_eq, hmixed, mixDown_eq, mixUp_eq, mixLow_eq, crcMix]

/-- **A byte of the code is a byte of the bitwise checksum.** -/
theorem settingsCrcByte_eq_crcByteOf (crc16 : BitVec 16) (byte : BitVec 8) :
    settingsCrcByte crc16 byte = crcByteOf 0x1021 crc16 byte := by
  rw [settingsCrcByte_eq, crcMix_xor, crcMix_byte, crcMix_high, crcByteOf_split _ (by decide)]

theorem foldl_settingsCrcByte (crc16 : BitVec 16) (bytes : List (BitVec 8)) :
    bytes.foldl settingsCrcByte crc16 = crcOf 0x1021 crc16 bytes := by
  have hbyte : settingsCrcByte = crcByteOf 0x1021 := by
    funext crc byte
    exact settingsCrcByte_eq_crcByteOf crc byte
  rw [crcOf, hbyte]

example : crc16Ccitt [0x31, 0x32, 0x33, 0x34, 0x35, 0x36, 0x37, 0x38, 0x39] = 0x29B1 := by decide +kernel

/-! ## The loop over the pieces -/

/-- The read of some piece of an image fails. -/
def PieceFails (fails : ℕ → Bool) (base size : ℕ) : Prop :=
  ∃ k, settingsPiece * k < size ∧ fails (base + settingsPiece * k) = true

/-- A failure in the rest of the image is a failure in the image, one piece further. -/
theorem pieceFails_succ {fails : ℕ → Bool} {addr remaining : ℕ} (hpos : 0 < remaining) :
    PieceFails fails addr remaining ↔ fails addr = true ∨
    PieceFails fails (addr + min remaining settingsPiece) (remaining - min remaining settingsPiece) := by
  constructor
  · rintro ⟨k, hk, hfail⟩
    cases k with
    | zero => exact Or.inl hfail
    | succ k =>
      rw [Nat.mul_succ] at hk hfail
      have hmin : min remaining settingsPiece = settingsPiece := Nat.min_eq_right (by omega)
      refine Or.inr ⟨k, by omega, ?_⟩
      rwa [hmin, Nat.add_assoc, Nat.add_comm settingsPiece]
  · rintro (hfail | ⟨k, hk, hfail⟩)
    · exact ⟨0, hpos, hfail⟩
    · have hmin : min remaining settingsPiece = settingsPiece := by omega
      rw [hmin] at hk hfail
      refine ⟨k + 1, ?_, ?_⟩
      · rw [Nat.mul_succ]
        omega
      · rwa [Nat.mul_succ, Nat.add_comm _ settingsPiece, ← Nat.add_assoc]

/-- The loop gives up at the first piece that is not read, and otherwise goes over the bytes of all of them. -/
theorem settingsCrcFrom_eq (fails : ℕ → Bool) (flash : ℕ → BitVec 8) (remaining : ℕ) : ∀ addr crc16,
    (PieceFails fails addr remaining → settingsCrcFrom (flashRead fails flash) addr remaining crc16 = none) ∧
    (¬PieceFails fails addr remaining → settingsCrcFrom (flashRead fails flash) addr remaining crc16 =
      some (crcOf 0x1021 crc16 (readFlash flash addr remaining))) := by
  induction remaining using Nat.strong_induction_on with
  | _ remaining ih =>
    intro addr crc16
    rw [settingsCrcFrom]
    by_cases hzero : remaining = 0
    · subst hzero
      rw [if_pos rfl]
      exact ⟨fun ⟨_, hk, _⟩ => absurd hk (Nat.not_lt_zero _), fun _ => rfl⟩
    have hpos : 0 < remaining := Nat.pos_of_ne_zero hzero
    rw [if_neg hzero, pieceFails_succ hpos]
    cases hread : fails addr with
    | true =>
      simp only [flashRead, hread, if_true, Option.bind_none]
      exact ⟨fun _ => trivial, fun h => absurd (Or.inl trivial) h⟩
    | false =>
      have hpiece : 0 < settingsPiece := by decide
      -- the piece that is read now, and the rest
      have hbytes : readFlash flash addr (min remaining settingsPiece) ++
          readFlash flash (addr + min remaining settingsPiece) (remaining - min remaining settingsPiece) =
            readFlash flash addr remaining := by
        rw [readFlash_append, Nat.add_sub_cancel' (Nat.min_le_left _ _)]
      have hrest := ih (remaining - min remaining settingsPiece) (by omega) (addr + min remaining settingsPiece)
        (crcOf 0x1021 crc16 (readFlash flash addr (min remaining settingsPiece)))
      simp only [flashRead, hread, Bool.false_eq_true, if_false, Option.bind_some, false_or,
        foldl_settingsCrcByte]
      rwa [← crcOf_append, hbytes] at hrest

/-- **The settings hold the CRC-16 of the image in the staging area**, whatever it is and however long, and they are
not prepared at all if a piece of it is not read. -/
theorem settings_crc16 (fails : ℕ → Bool) (flash : ℕ → BitVec 8) (stagingBase imageSize : ℕ) :
    (PieceFails fails stagingBase imageSize →
      prepareSettings (flashRead fails flash) stagingBase imageSize = none) ∧
    (¬PieceFails fails stagingBase imageSize →
      prepareSettings (flashRead fails flash) stagingBase imageSize =
        some ⟨bankValidApp, crc16Ccitt (readFlash flash stagingBase imageSize), bankInvalidApp, imageSize⟩) := by
  obtain ⟨hfails, hread⟩ := settingsCrcFrom_eq fails flash imageSize stagingBase 0xFFFF
  refine ⟨fun h => ?_, fun h => ?_⟩
  · rw [prepareSettings, hfails h, Option.map_none]
  · rw [prepareSettings, hread h, Option.map_some, crc16Ccitt]

end SlimeReceiver.SelfUpdate
