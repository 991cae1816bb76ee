import Mathlib.Order.CompletePartialOrder
import Mathlib.Order.Interval.Set.Disjoint
import SlimeReceiver.SelfUpdate.FlashCopy
import SlimeReceiver.SelfUpdate.Machine

/-! # Where an update is staged

The layout `rcv_ota_handle_begin` computes in `uint32_t` for a build without MCUboot, and the parameters
`rcv_ota_activate_and_reset` passes to the flash copier.

* **`FlashBuild`** — the part of the flash an update may use, and the running image.
* **`FlashBuild.layout`** — the checks and the layout of a BEGIN; `beginCheck_layout` compares it with the
  checks of the update machine, which do not wrap.
* **`staging_layout`** — the staging region lies apart from the running image and from what the copier touches. -/

namespace SlimeReceiver.SelfUpdate

/-! ## The build -/

/-- The supported chips. -/
inductive Soc
  | nrf52840
  | nrf52833
  deriving DecidableEq

/-- `RCV_OTA_FLASH_END`. -/
def Soc.flashEnd : Soc → BitVec 32
  | .nrf52840 => 0xDA000
  | .nrf52833 => 0x6E000

/-- `RCV_OTA_BOOTLOADER_SETTINGS_ADDR`, the last page of the flash. -/
def Soc.settingsAddr : Soc → BitVec 32
  | .nrf52840 => 0xFF000
  | .nrf52833 => 0x7F000

/-- The code partition of a build without MCUboot starts at a page below `RCV_OTA_FLASH_END`, and the running image
lies in the flash. -/
structure FlashBuild where
  soc : Soc
  partitionStart : ℕ
  /-- `_flash_used`. -/
  flashUsed : ℕ
  boardMatches : List (BitVec 8) → Bool
  aligned : 4096 ∣ partitionStart
  start_le : partitionStart ≤ soc.flashEnd.toNat
  image_le : partitionStart + flashUsed ≤ soc.settingsAddr.toNat + 4096

namespace FlashBuild

/-- `RCV_OTA_FLASH_BASE`. -/
def flashBase (b : FlashBuild) : BitVec 32 := BitVec.ofNat 32 (max b.partitionStart 0x1000)

/-- `current_app_size`. -/
def currentAppSize (b : FlashBuild) : BitVec 32 := BitVec.ofNat 32 b.flashUsed

/-- `RCV_OTA_MAX_IMAGE_SIZE`. -/
def maxImageSize (b : FlashBuild) : BitVec 32 := (b.soc.flashEnd - b.flashBase) / 2

end FlashBuild

/-- What a BEGIN settles. -/
structure RcvLayout where
  /-- The `flash_base` of the report. -/
  requestedBase : BitVec 32
  imageSize : BitVec 32
  imagePages : BitVec 32
  stagingBase : BitVec 32
  targetFlashBase : BitVec 32
  deriving DecidableEq

/-- `MAX(image_size, current_app_size)`. -/
def maxWord (a b : BitVec 32) : BitVec 32 := if b < a then a else b

/-- The checks of `rcv_ota_handle_begin` on a report of 64 bytes, and the layout if all pass. -/
def FlashBuild.layout (b : FlashBuild) (data : List (BitVec 8)) : Option RcvLayout :=
  let byte := fun k => data.getD k 0
  let imageSize := le32 (byte 2) (byte 3) (byte 4) (byte 5)
  let flashBase := (be16 (byte 61) (byte 62)).setWidth 32 <<< 12
  if data.length < 64 then none
  else if byte 12 ≠ 1 then none
  else if imageSize = 0 ∨ b.maxImageSize < imageSize then none
  else if ¬ b.boardMatches ((data.drop 13).take 47) then none
  else if flashBase ≠ 0 ∧ flashBase < 0x1000 then none
  else if flashBase ≠ 0 ∧ b.flashBase < flashBase then none
  else if flashBase ≠ 0 ∧ b.soc.flashEnd < flashBase + imageSize then none
  else
    let imagePages := (imageSize + 4096 - 1) / 4096
    let stagingBase := (b.soc.flashEnd - imagePages * 4096) &&& ~~~ (4096 - 1)
    if stagingBase < b.flashBase + maxWord imageSize b.currentAppSize then none
    else some
      { requestedBase := flashBase
        imageSize := imageSize
        imagePages := imagePages
        stagingBase := stagingBase
        targetFlashBase := if flashBase ≠ 0 then flashBase else b.flashBase }

/-- The parameters of the flash copier, with the settings if they are prepared. -/
def FlashBuild.copyParams (b : FlashBuild) (l : RcvLayout) (settings : Option (ℕ → BitVec 32)) : FlashCopyParams where
  srcAddr := l.stagingBase
  dstAddr := l.targetFlashBase
  size := l.imageSize
  pageSize := 4096
  settingsAddr := if settings.isSome then b.soc.settingsAddr else 0
  settingsData := settings.getD fun _ => 0
  settingsWords := if settings.isSome then 7 else 0

/-! ## What the copier touches -/

/-- The bytes an operation erases or writes. -/
def NvmcOp.touched : NvmcOp → Set ℕ
  | .erased page => Set.Ico page.toNat (page.toNat + 4096)
  | .written addr => Set.Ico addr.toNat (addr.toNat + 4)

section Touched

variable {p : FlashCopyParams} {n : Nvmc} {i : ℕ}

theorem ops_write {addr value : BitVec 32} {op : NvmcOp} (h : op ∈ (n.write addr value).ops) :
    op ∈ n.ops ∨ op = .written addr := by
  unfold Nvmc.write at h
  split at h
  case isTrue => simpa using h
  case isFalse => exact .inl h

theorem ops_erasePage {pageSize page : BitVec 32} {op : NvmcOp} (h : op ∈ (n.erasePage pageSize page).ops) :
    op ∈ n.ops ∨ op = .erased page := by
  unfold Nvmc.erasePage at h
  split at h
  case isTrue => simpa using h
  case isFalse => exact .inl h

/-- What is erased or written for one page. -/
def PageOp (p : FlashCopyParams) (i : ℕ) (op : NvmcOp) : Prop :=
  op = .erased (p.dstPage i) ∨ ∃ w < (p.words i).toNat, op = .written (wordAddr (p.dstPage i) w)

theorem ops_copyPage {op : NvmcOp} (h : op ∈ (copyPage p n i).ops) : op ∈ n.ops ∨ PageOp p i op := by
  unfold copyPage at h
  split at h
  case isTrue => exact .inl h
  case isFalse =>
    unfold rewritePage at h
    refine forBelow_invariant (P := fun _ (r : Nvmc) => ∀ op ∈ r.ops, op ∈ n.ops ∨ PageOp p i op)
      (fun op hop => ?_) (fun w r hw hr op hop => ?_) op h
    · exact (ops_erasePage hop).imp_right .inl
    · rcases ops_write hop with hold | rfl
      · exact hr op hold
      · exact .inr (.inr ⟨w, hw, rfl⟩)

theorem ops_copyPages {op : NvmcOp} (h : op ∈ (copyPages p n).ops) :
    op ∈ n.ops ∨ ∃ i < p.pages.toNat, PageOp p i op :=
  forBelow_invariant (P := fun _ (r : Nvmc) => ∀ op ∈ r.ops, op ∈ n.ops ∨ ∃ i < p.pages.toNat, PageOp p i op)
    (fun _ hop => .inl hop) (fun i _ hi hr op hop => (ops_copyPage hop).elim (hr op) fun hpage => .inr ⟨i, hi, hpage⟩)
    op h

/-- All of it lies in the page. -/
theorem PageOp.touched_subset (h : p.WellFormed) (hi : i < p.pageCount) (hsize : p.pageSize = 4096) {op : NvmcOp}
    (hop : PageOp p i op) :
    op.touched ⊆ Set.Ico (p.dstPage i).toNat ((p.dstPage i).toNat + 4096) := by
  rcases hop with rfl | ⟨w, hw, rfl⟩
  · exact subset_rfl
  · have hwords := hw.trans_le (h.words_le hi)
    have hend := (h.dstPage_toNat hi).2
    have hpage : p.pageSize.toNat = 4096 := by
      rw [hsize]
      rfl
    have haddr : (wordAddr (p.dstPage i) w).toNat = (p.dstPage i).toNat + 4 * w := by
      unfold wordAddr
      unfold FlashCopyParams.pageWords at hwords
      bv_omega
    unfold FlashCopyParams.pageWords at hwords
    refine Set.Ico_subset_Ico ?_ ?_
    · omega
    · omega

end Touched

/-! ## The layout -/

/-- The computations behind a layout, none of which wraps. -/
structure NoWrap (b : FlashBuild) (l : RcvLayout) : Prop where
  room : (b.soc.flashEnd - b.flashBase).toNat + b.flashBase.toNat = b.soc.flashEnd.toNat
  imageEnd : (l.requestedBase + l.imageSize).toNat = l.requestedBase.toNat + l.imageSize.toNat
  roundUp : (l.imageSize + 4096 - 1).toNat = l.imageSize.toNat + 4095
  region : (l.imagePages * 4096).toNat = l.imagePages.toNat * 4096
  staging : (b.soc.flashEnd - l.imagePages * 4096).toNat + (l.imagePages * 4096).toNat = b.soc.flashEnd.toNat
  limit : (b.flashBase + maxWord l.imageSize b.currentAppSize).toNat =
    b.flashBase.toNat + max l.imageSize.toNat b.flashUsed

section Layout

variable {b : FlashBuild} {l : RcvLayout} {data : List (BitVec 8)}

/-- A page-aligned address is not changed by the mask. -/
theorem and_pageMask {x : BitVec 32} (h : 4096 ∣ x.toNat) : x &&& ~~~ (4096 - 1) = x := by
  obtain ⟨k, hk⟩ := h
  apply BitVec.eq_of_getLsbD_eq
  intro i hi
  rw [BitVec.getLsbD_and]
  by_cases hlow : i < 12
  · have hzero : x.getLsbD i = false := by
      rw [BitVec.getLsbD, hk, show 4096 = 2 ^ 12 from rfl, Nat.testBit_two_pow_mul]
      simp [hlow]
    rw [hzero, Bool.false_and]
  · have hmask : ∀ i < 32, 12 ≤ i → (~~~ (4096 - 1) : BitVec 32).getLsbD i = true := by decide
    rw [hmask i hi (Nat.le_of_not_lt hlow), Bool.and_true]

theorem Soc.flashEnd_bounds (soc : Soc) : 4096 ∣ soc.flashEnd.toNat ∧ 0x1000 < soc.flashEnd.toNat ∧
    soc.flashEnd.toNat ≤ 0xDA000 ∧ soc.settingsAddr.toNat ≤ 0xFF000 ∧ soc.flashEnd.toNat ≤ soc.settingsAddr.toNat := by
  cases soc <;> decide

theorem FlashBuild.flashBase_toNat (b : FlashBuild) : b.flashBase.toNat = max b.partitionStart 0x1000 ∧
    b.flashBase.toNat ≤ b.soc.flashEnd.toNat ∧ 4096 ∣ b.flashBase.toNat := by
  obtain ⟨-, hlow, hhigh, -⟩ := b.soc.flashEnd_bounds
  have hstart := b.start_le
  have hbase : b.flashBase.toNat = max b.partitionStart 0x1000 := by
    rw [flashBase, BitVec.toNat_ofNat, Nat.mod_eq_of_lt (by omega)]
  refine ⟨hbase, by omega, ?_⟩
  rw [hbase]
  rcases max_choice b.partitionStart 0x1000 with hmax | hmax
  · exact Nat.dvd_trans b.aligned ⟨1, hmax.trans (Nat.mul_one _).symm⟩
  · exact ⟨1, hmax.trans (Nat.mul_one _).symm⟩

theorem maxWord_toNat (a b : BitVec 32) : (maxWord a b).toNat = max a.toNat b.toNat := by
  unfold maxWord
  split
  case isTrue hlt =>
    have hlt' : b.toNat < a.toNat := hlt
    omega
  case isFalse hnot =>
    have hle : a.toNat ≤ b.toNat := Nat.le_of_not_lt hnot
    omega

/-- What an accepted BEGIN has passed. -/
structure Accepted (b : FlashBuild) (l : RcvLayout) : Prop where
  image_pos : 0 < l.imageSize.toNat
  image_le : 2 * l.imageSize.toNat + b.flashBase.toNat ≤ b.soc.flashEnd.toNat
  requested : 4096 ∣ l.requestedBase.toNat ∧ l.requestedBase.toNat ≤ b.flashBase.toNat
  pages : l.imagePages.toNat = (l.imageSize.toNat + 4095) / 4096
  base : l.stagingBase.toNat + l.imagePages.toNat * 4096 = b.soc.flashEnd.toNat
  apart : b.flashBase.toNat + max l.imageSize.toNat b.flashUsed ≤ l.stagingBase.toNat
  target : l.targetFlashBase = if l.requestedBase ≠ 0 then l.requestedBase else b.flashBase

theorem pageShift_toNat (x : BitVec 16) : (x.setWidth 32 <<< 12).toNat = x.toNat * 4096 := by
  have hlt := x.isLt
  rw [BitVec.toNat_shiftLeft, BitVec.toNat_setWidth, Nat.shiftLeft_eq, Nat.mod_eq_of_lt (by omega : x.toNat < 2 ^ 32),
    Nat.mod_eq_of_lt (by omega)]

/-- The room an image of an admissible size needs, computed without wrapping. -/
theorem sizes_of_le {size : BitVec 32} (hpos : size ≠ 0) (hle : size ≤ b.maxImageSize) :
    0 < size.toNat ∧ 2 * size.toNat + b.flashBase.toNat ≤ b.soc.flashEnd.toNat ∧
      (b.soc.flashEnd - b.flashBase).toNat + b.flashBase.toNat = b.soc.flashEnd.toNat ∧
      (size + 4096 - 1).toNat = size.toNat + 4095 ∧
      ((size + 4096 - 1) / 4096).toNat = (size.toNat + 4095) / 4096 ∧
      ((size + 4096 - 1) / 4096 * 4096).toNat = (size.toNat + 4095) / 4096 * 4096 ∧
      (b.soc.flashEnd - (size + 4096 - 1) / 4096 * 4096).toNat + (size.toNat + 4095) / 4096 * 4096 =
        b.soc.flashEnd.toNat := by
  obtain ⟨hpage, hlow, hhigh, -⟩ := b.soc.flashEnd_bounds
  obtain ⟨hbase, hstart, -⟩ := b.flashBase_toNat
  have hroom : (b.soc.flashEnd - b.flashBase).toNat = b.soc.flashEnd.toNat - b.flashBase.toNat :=
    BitVec.toNat_sub_of_le hstart
  have hmax : size.toNat ≤ (b.soc.flashEnd.toNat - b.flashBase.toNat) / 2 := by
    have hle' : size.toNat ≤ b.maxImageSize.toNat := hle
    rw [FlashBuild.maxImageSize, BitVec.toNat_udiv, hroom] at hle'
    exact hle'
  have hpos' : 0 < size.toNat := by
    by_contra hzero
    exact hpos (BitVec.eq_of_toNat_eq (Nat.eq_zero_of_not_pos hzero))
  have hup : (size + 4096 - 1).toNat = size.toNat + 4095 := by bv_omega
  have hpages : ((size + 4096 - 1) / 4096).toNat = (size.toNat + 4095) / 4096 := by
    rw [BitVec.toNat_udiv, hup]
    rfl
  have hregion : ((size + 4096 - 1) / 4096 * 4096).toNat = (size.toNat + 4095) / 4096 * 4096 := by
    rw [BitVec.toNat_mul, hpages]
    exact Nat.mod_eq_of_lt (by change _ * 4096 < _; omega)
  refine ⟨hpos', by omega, by omega, hup, hpages, hregion, ?_⟩
  rw [BitVec.toNat_sub_of_le (BitVec.le_def.mpr (by omega)), hregion]
  omega

theorem accepted_of_layout (h : b.layout data = some l) : Accepted b l ∧ NoWrap b l := by
  obtain ⟨hpage, hlow, hhigh, hsettings, -⟩ := b.soc.flashEnd_bounds
  obtain ⟨hbase, hstart, haligned⟩ := b.flashBase_toNat
  have himage := b.image_le
  have hused : b.currentAppSize.toNat = b.flashUsed := by
    rw [FlashBuild.currentAppSize, BitVec.toNat_ofNat, Nat.mod_eq_of_lt (by omega)]
  unfold FlashBuild.layout at h
  dsimp only at h
  have hshift := pageShift_toNat (be16 (data.getD 61 0) (data.getD 62 0))
  generalize (be16 (data.getD 61 0) (data.getD 62 0)).setWidth 32 <<< 12 = requested at h hshift
  generalize le32 (data.getD 2 0) (data.getD 3 0) (data.getD 4 0) (data.getD 5 0) = size at h
  generalize htarget : (if requested ≠ 0 then requested else b.flashBase) = target at h
  split_ifs at h with _ _ hsize _ _ hbelow hend hover
  obtain rfl := Option.some.inj h
  rw [not_or, BitVec.not_lt] at hsize
  obtain ⟨hpos, hle, hroom, hup, hpages, hregion, hstaging⟩ := sizes_of_le hsize.1 hsize.2
  have hmask : (b.soc.flashEnd - (size + 4096 - 1) / 4096 * 4096) &&& ~~~ (4096 - 1) =
      b.soc.flashEnd - (size + 4096 - 1) / 4096 * 4096 := and_pageMask (by omega)
  rw [hmask] at hover ⊢
  have hrequested : requested.toNat ≤ b.flashBase.toNat := by
    by_cases hzero : requested = 0
    · rw [hzero]
      exact Nat.zero_le _
    · exact Nat.le_of_not_lt fun hlt => hbelow ⟨hzero, hlt⟩
  have hlimit : (b.flashBase + maxWord size b.currentAppSize).toNat =
      b.flashBase.toNat + max size.toNat b.flashUsed := by
    rw [BitVec.toNat_add, maxWord_toNat, hused, Nat.mod_eq_of_lt (by omega)]
  refine ⟨⟨hpos, hle, ⟨?_, hrequested⟩, hpages, ?_, ?_, htarget.symm⟩, ⟨hroom, ?_, hup, ?_, ?_, hlimit⟩⟩
  · rw [hshift]
    exact Nat.dvd_mul_left _ _
  · dsimp only
    rw [hpages]
    exact hstaging
  · rw [← hlimit]
    exact Nat.le_of_not_lt hover
  · exact (BitVec.toNat_add _ _).trans (Nat.mod_eq_of_lt (by dsimp only; omega))
  · dsimp only
    rw [hregion, hpages]
  · dsimp only
    rw [hregion]
    exact hstaging

theorem Accepted.aligned (h : Accepted b l) : 4096 ∣ l.stagingBase.toNat ∧ 4096 ∣ l.targetFlashBase.toNat ∧
    l.targetFlashBase.toNat ≤ b.flashBase.toNat := by
  obtain ⟨hpage, -⟩ := b.soc.flashEnd_bounds
  obtain ⟨-, -, haligned⟩ := b.flashBase_toNat
  have hbase := h.base
  refine ⟨by omega, ?_⟩
  rw [h.target]
  split
  case isTrue => exact h.requested
  case isFalse => exact ⟨haligned, le_rfl⟩

theorem Accepted.pageCount (h : Accepted b l) (settings : Option (ℕ → BitVec 32)) :
    (b.copyParams l settings).pageCount = l.imagePages.toNat := h.pages.symm

/-- The whole destination lies below the staging region. -/
theorem Accepted.destination_le (h : Accepted b l) :
    l.targetFlashBase.toNat + l.imagePages.toNat * 4096 ≤ l.stagingBase.toNat := by
  obtain ⟨hstaging, -, htarget⟩ := h.aligned
  obtain ⟨-, -, haligned⟩ := b.flashBase_toNat
  have hpages := h.pages
  have hapart := h.apart
  omega

/-- An accepted BEGIN gives the copier parameters it is made for. -/
theorem Accepted.wellFormed (h : Accepted b l) (settings : Option (ℕ → BitVec 32)) :
    (b.copyParams l settings).WellFormed := by
  obtain ⟨hstaging, htarget, hle⟩ := h.aligned
  obtain ⟨-, -, hhigh, -⟩ := b.soc.flashEnd_bounds
  have hbase := h.base
  have hdestination := h.destination_le
  have hcount : (b.copyParams l settings).pageCount * (b.copyParams l settings).pageSize.toNat =
      l.imagePages.toNat * 4096 := by
    rw [h.pageCount]
    rfl
  have hsettings : ∀ soc : Soc, 4 ∣ soc.settingsAddr.toNat ∧ soc.settingsAddr.toNat + 4096 ≤ 2 ^ 32 := by
    intro soc
    cases soc <;> decide
  constructor
  · exact (by decide : 0 < (4096 : BitVec 32).toNat)
  · exact ⟨1024, rfl⟩
  · exact hstaging
  · exact htarget
  · rw [hcount]
    show l.stagingBase.toNat + _ ≤ _
    omega
  · rw [hcount]
    show l.targetFlashBase.toNat + _ ≤ _
    omega
  · rw [hcount]
    exact .inr hdestination
  · intro hset
    cases settings with
    | none => exact absurd rfl hset
    | some settings =>
      exact ⟨(hsettings b.soc).1, (hsettings b.soc).2,
        (by decide : (7 : BitVec 32).toNat ≤ (4096 : BitVec 32).toNat / 4)⟩

/-- The checks of the update machine for a build without MCUboot. -/
def FlashBuild.config (b : FlashBuild) : FlashConfig where
  useMcuboot := false
  flashBase := b.flashBase.toNat
  flashEnd := b.soc.flashEnd.toNat
  flashUsed := b.flashUsed
  boardMatches := b.boardMatches
  capacity := 0
  stagingStart := 0
  secondarySize := 0
  flashEnd_le := b.soc.flashEnd_bounds.2.2.1.trans (by decide)
  capacity_le := noCapacity_le
  capacity_le_secondary := le_rfl

/-- The update machine accepts what the code accepts, with the same staging region. -/
theorem beginCheck_layout (h : b.layout data = some l) (answers : BeginAnswers) {request : BeginRequest}
    (hreport : data.getD 0 0 = 0xF2) (hparsed : parseReport data = .start (some request)) :
    beginCheck b.config answers request = .ok l.stagingBase.toNat := by
  obtain ⟨haccepted, hwrap⟩ := accepted_of_layout h
  have hsizes : request.imageSize = l.imageSize.toNat ∧ request.flashBase = l.requestedBase.toNat ∧
      request.protocolVer = 1 ∧ b.boardMatches request.boardTarget = true := by
    unfold FlashBuild.layout at h
    dsimp only at h
    generalize htarget : (if (be16 (data.getD 61 0) (data.getD 62 0)).setWidth 32 <<< 12 ≠ 0 then
      (be16 (data.getD 61 0) (data.getD 62 0)).setWidth 32 <<< 12 else b.flashBase) = target at h
    split_ifs at h with hlength hversion _ hboard
    obtain rfl := Option.some.inj h
    have hnot : ¬ data.getD 0 0 = 0xF0 := by
      rw [hreport]
      decide
    simp only [parseReport] at hparsed
    rw [if_neg hnot, if_pos hreport, if_neg hlength] at hparsed
    obtain rfl := Option.some.inj (Report.start.inj hparsed)
    exact ⟨rfl, (pageShift_toNat _).symm, Decidable.not_not.mp hversion, hboard⟩
  obtain ⟨hsize, hbase, hversion, hboard⟩ := hsizes
  obtain ⟨-, hstart, -⟩ := b.flashBase_toNat
  obtain ⟨hstaging, -⟩ := haccepted.aligned
  have hpos := haccepted.image_pos
  have hle := haccepted.image_le
  have hrequested := haccepted.requested
  have hend := haccepted.base
  have hpages := haccepted.pages
  have hapart := haccepted.apart
  have hplain : ¬ b.config.useMcuboot = true := Bool.false_ne_true
  have hregion : b.config.stagingBase request.imageSize = l.stagingBase.toNat := by
    rw [FlashConfig.stagingBase, if_neg hplain, hsize]
    show (b.soc.flashEnd.toNat - (l.imageSize.toNat + 4096 - 1) / 4096 * 4096) / 4096 * 4096 = _
    omega
  have hmax : b.config.maxImageSize = (b.soc.flashEnd.toNat - b.flashBase.toNat) / 2 := rfl
  have hmcuboot : b.config.useMcuboot = false := rfl
  have hconfigBase : b.config.flashBase = b.flashBase.toNat := rfl
  have hconfigEnd : b.config.flashEnd = b.soc.flashEnd.toNat := rfl
  have hconfigUsed : b.config.flashUsed = b.flashUsed := rfl
  have hconfigBoard : b.config.boardMatches request.boardTarget = true := hboard
  unfold beginCheck
  rw [if_neg (not_not.mpr hversion), hmcuboot, hregion, hmax, hconfigBase, hconfigEnd, hconfigUsed, hsize, hbase,
    if_neg (by simp), if_neg (by simp), if_neg (by omega), if_neg (by simp [hconfigBoard]), if_neg (by simp),
    if_neg (by omega), if_neg (by omega), if_neg (by omega), if_neg (by omega)]

end Layout

/-- For every BEGIN that is accepted no computation wraps; the staging region is page aligned, ends at or before
`RCV_OTA_FLASH_END`, and lies apart from the running image and from all that the copier erases or writes for the
destination. -/
theorem staging_layout (b : FlashBuild) {data : List (BitVec 8)} {l : RcvLayout} (h : b.layout data = some l) :
    NoWrap b l ∧ 4096 ∣ l.stagingBase.toNat ∧
    l.stagingBase.toNat + l.imagePages.toNat * 4096 ≤ b.soc.flashEnd.toNat ∧
    Disjoint (Set.Ico l.stagingBase.toNat (l.stagingBase.toNat + l.imagePages.toNat * 4096))
      (Set.Ico b.partitionStart (b.partitionStart + b.flashUsed)) ∧
    ∀ settings config flash, (b.copyParams l settings).WellFormed ∧
      (∀ i < l.imagePages.toNat,
        ((b.copyParams l settings).dstPage i).toNat = l.targetFlashBase.toNat + i * 4096 ∧
        ((b.copyParams l settings).srcPage i).toNat = l.stagingBase.toNat + i * 4096) ∧
      ∀ op ∈ (copyPages (b.copyParams l settings) ⟨config, flash, []⟩).ops,
        Disjoint (Set.Ico l.stagingBase.toNat (l.stagingBase.toNat + l.imagePages.toNat * 4096)) op.touched := by
  obtain ⟨haccepted, hwrap⟩ := accepted_of_layout h
  obtain ⟨hstaging, -, -⟩ := haccepted.aligned
  obtain ⟨hbase, -, -⟩ := b.flashBase_toNat
  have hapart := haccepted.apart
  refine ⟨hwrap, hstaging, haccepted.base.le, ?_, fun settings config flash => ?_⟩
  · rw [Set.Ico_disjoint_Ico]
    omega
  · have hformed := haccepted.wellFormed settings
    have hcount := haccepted.pageCount settings
    have hpages : ∀ i < l.imagePages.toNat,
        ((b.copyParams l settings).dstPage i).toNat = l.targetFlashBase.toNat + i * 4096 ∧
        ((b.copyParams l settings).srcPage i).toNat = l.stagingBase.toNat + i * 4096 := by
      intro i hi
      rw [← hcount] at hi
      have hwords : (b.copyParams l settings).pageWords = 1024 :=
        (by decide : (4096 : BitVec 32).toNat / 4 = 1024)
      rw [(hformed.dstPage_toNat hi).1, (hformed.srcPage_toNat hi).1, hwords]
      exact ⟨congrArg (l.targetFlashBase.toNat + ·) (by omega), congrArg (l.stagingBase.toNat + ·) (by omega)⟩
    refine ⟨hformed, hpages, fun op hop => ?_⟩
    rcases ops_copyPages hop with hnone | ⟨i, hi, hpage⟩
    · cases hnone
    · rw [hformed.pages_toNat] at hi
      refine Set.disjoint_of_subset_right (hpage.touched_subset hformed hi rfl) ?_
      have hdestination := haccepted.destination_le
      rw [hcount] at hi
      rw [(hpages i hi).1, Set.Ico_disjoint_Ico]
      omega

/-- A build of the XIAO board. -/
def sampleBuild : FlashBuild where
  soc := .nrf52840
  partitionStart := 0x27000
  flashUsed := 200000
  boardMatches name := name.headD 0 == 0
  aligned := by decide
  start_le := by decide
  image_le := by decide

/-- A BEGIN for 200000 bytes at 0x10000. -/
def sampleBegin : List (BitVec 8) :=
  [0xF2, 0xFE, 0x40, 0x0D, 0x03, 0, 0, 0, 0, 0, 0, 0, 1] ++ List.replicate 48 0 ++ [0, 0x10, 0]

theorem staging_layout_sample : ∃ l, sampleBuild.layout sampleBegin = some l ∧ l.stagingBase = 0xA9000 ∧
    Disjoint (Set.Ico l.stagingBase.toNat (l.stagingBase.toNat + l.imagePages.toNat * 4096))
      (Set.Ico 0x27000 (0x27000 + 200000)) := by
  have hlayout : sampleBuild.layout sampleBegin = some ⟨0x10000, 200000, 49, 0xA9000, 0x10000⟩ := by
    decide +kernel
  exact ⟨_, hlayout, rfl, (staging_layout sampleBuild hlayout).2.2.2.1⟩

end SlimeReceiver.SelfUpdate
