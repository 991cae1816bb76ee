import SlimeReceiver.Library.ByteImage
import SlimeReceiver.SelfUpdate.HostSide
import SlimeReceiver.SelfUpdate.Layout
import SlimeReceiver.SelfUpdate.SettingsCrc

/-! # What an activation installs

`rcv_ota_do_activate` and `rcv_ota_activate_and_reset` of a build without MCUboot, at the end of an update by the
host. The copier works on words, everything before it on bytes.

* **`wordsOf`**, **`bytesOf`** — the flash as words and as bytes.
* **`settingsBytes`**, **`doActivate`** — the settings as they lie in the flash, and the activation.
* **`exists_layout`** — a BEGIN that the update machine accepts has a layout.
* **`installs_image`** — the image that was sent replaces the application, and nothing else is changed. -/

namespace SlimeReceiver.SelfUpdate

open Ota (UpdateArgs sendBegin receiverOtaId)

/-! ## Words and bytes -/

/-- The words of a memory of bytes. -/
def wordsOf (bytes : ℕ → BitVec 8) (w : ℕ) : BitVec 32 :=
  le32 (bytes (4 * w)) (bytes (4 * w + 1)) (bytes (4 * w + 2)) (bytes (4 * w + 3))

/-- The bytes of a memory of words. -/
def bytesOf (words : ℕ → BitVec 32) (a : ℕ) : BitVec 8 := (words (a / 4)).extractLsb' (8 * (a % 4)) 8

/-- The bytes of a number. -/
theorem extractLsb'_le32 (b₀ b₁ b₂ b₃ : BitVec 8) : (le32 b₀ b₁ b₂ b₃).extractLsb' 0 8 = b₀ ∧
    (le32 b₀ b₁ b₂ b₃).extractLsb' 8 8 = b₁ ∧ (le32 b₀ b₁ b₂ b₃).extractLsb' 16 8 = b₂ ∧
      (le32 b₀ b₁ b₂ b₃).extractLsb' 24 8 = b₃ := by
  refine ⟨?_, ?_, ?_, ?_⟩
  all_goals
    refine BitVec.eq_of_getLsbD_eq fun i hi => ?_
    rw [BitVec.getLsbD_extractLsb', le32, BitVec.getLsbD_append, BitVec.getLsbD_append, BitVec.getLsbD_append]
  · simp [hi]
  · simp [hi]
  · simp [hi, show ¬16 + i < 8 by omega, show ¬16 + i - 8 < 8 by omega, show 16 + i - 8 - 8 = i by omega]
  · simp [hi, show ¬24 + i < 8 by omega, show ¬24 + i - 8 < 8 by omega, show ¬24 + i - 8 - 8 < 8 by omega,
      show 24 + i - 8 - 8 - 8 = i by omega]

/-- The bytes of the words of a memory are its bytes. -/
theorem bytesOf_wordsOf (bytes : ℕ → BitVec 8) (a : ℕ) : bytesOf (wordsOf bytes) a = bytes a := by
  obtain ⟨h₀, h₁, h₂, h₃⟩ := extractLsb'_le32 (bytes (4 * (a / 4))) (bytes (4 * (a / 4) + 1)) (bytes (4 * (a / 4) + 2))
    (bytes (4 * (a / 4) + 3))
  have hplace : bytes a = bytes (4 * (a / 4) + a % 4) := by rw [Nat.div_add_mod]
  rw [bytesOf, wordsOf, hplace]
  obtain hr | hr | hr | hr : a % 4 = 0 ∨ a % 4 = 1 ∨ a % 4 = 2 ∨ a % 4 = 3 := by omega
  all_goals rw [hr]
  · exact h₀
  · exact h₁
  · exact h₂
  · exact h₃

/-- A byte of one of two words that are the same. -/
theorem bytesOf_congr {words words' : ℕ → BitVec 32} {a a' : ℕ} (hplace : a % 4 = a' % 4)
    (hword : words (a / 4) = words' (a' / 4)) : bytesOf words a = bytesOf words' a' := by
  rw [bytesOf, bytesOf, hword, hplace]

/-- Words programmed one after the other onto an erased range. -/
theorem programWords_erased {width : ℕ} {start len page : ℕ} (value : ℕ → BitVec width) (flash : ℕ → BitVec width)
    (hlen : len ≤ page) {w : ℕ} (hw : w < len) :
    forBelow len (fun flash w => programWord (start + w) (value w) flash) (eraseWords start page flash) (start + w) =
      value w := by
  have hloop : ∀ w < page, forBelow len (fun flash w => programWord (start + w) (value w) flash)
      (eraseWords start page flash) (start + w) = if w < len then value w else BitVec.allOnes width := by
    refine forBelow_invariant (P := fun k (r : ℕ → BitVec width) => ∀ w < page, r (start + w) =
      if w < k then value w else BitVec.allOnes width) (fun w hw => ?_) fun k r hk hr w hw => ?_
    · rw [if_neg (Nat.not_lt_zero w)]
      exact eraseWords_of_mem (by omega) (by omega)
    · rw [programWord]
      by_cases heq : w = k
      · subst heq
        rw [Function.update_self, hr w hw, if_neg (lt_irrefl w), if_pos w.lt_succ_self, BitVec.allOnes_and]
      · rw [Function.update_of_ne (by omega), hr w hw]
        exact if_congr (by omega) rfl rfl
  rw [hloop w (hw.trans_le hlen), if_pos hw]

/-! ## The activation -/

/-- A field of 16 bits in memory. -/
def halfWordBytes (x : BitVec 16) : List (BitVec 8) := (be16Bytes x).reverse

/-- `struct bootloader_settings` in memory. -/
def settingsBytes (settings : BootloaderSettings) : List (BitVec 8) :=
  List.flatten [halfWordBytes settings.bank0, halfWordBytes settings.bank0Crc, halfWordBytes settings.bank1,
    halfWordBytes 0, le32Bytes (.ofNat 32 settings.bank0Size), List.replicate 16 0]

/-- `params.settings_data`. -/
def settingsData (settings : BootloaderSettings) : ℕ → BitVec 32 := wordsOf fun k => (settingsBytes settings).getD k 0

/-- `rcv_ota_activate_and_reset`, up to the reset. -/
def activateAndReset (b : FlashBuild) (l : RcvLayout) (prepared : Option BootloaderSettings) (flash : ℕ → BitVec 8) :
    Nvmc :=
  flashCopyFromRam (b.copyParams l (prepared.map settingsData)) ⟨.ren, wordsOf flash, []⟩

/-- `rcv_ota_do_activate` of a build with a bootloader or without; `none` is a flash error. -/
def doActivate (b : FlashBuild) (l : RcvLayout) (bootloader : Bool) (fails : ℕ → Bool) (flash : ℕ → BitVec 8) :
    Option Nvmc :=
  if bootloader then
    (prepareSettings (flashRead fails flash) l.stagingBase.toNat l.imageSize.toNat).map fun settings =>
      activateAndReset b l (some settings) flash
  else some (activateAndReset b l none flash)

/-- The bytes of the destination pages. -/
def RcvLayout.destination (l : RcvLayout) : Set ℕ :=
  Set.Ico l.targetFlashBase.toNat (l.targetFlashBase.toNat + l.imagePages.toNat * 4096)

/-- The bytes of the settings page. -/
def Soc.settingsPage (soc : Soc) : Set ℕ := Set.Ico soc.settingsAddr.toNat (soc.settingsAddr.toNat + 4096)

/-- What was staged is at its destination, the settings are in their page, and nothing else is changed. -/
structure Installed (b : FlashBuild) (l : RcvLayout) (prepared : Option BootloaderSettings)
    (before after : ℕ → BitVec 8) : Prop where
  image : readFlash after l.targetFlashBase.toNat l.imageSize.toNat =
    readFlash before l.stagingBase.toNat l.imageSize.toNat
  settings : ∀ settings ∈ prepared, readFlash after b.soc.settingsAddr.toNat 28 = settingsBytes settings
  kept : ∀ a, a ∉ l.destination → (prepared.isSome → a ∉ b.soc.settingsPage) → after a = before a

section Activation

variable {b : FlashBuild} {l : RcvLayout}

/-- The settings are written. -/
theorem writeSettings_written {p : FlashCopyParams} (h : p.WellFormed) (hset : p.settingsAddr ≠ 0) (n : Nvmc) {w : ℕ}
    (hw : w < p.settingsWords.toNat) :
    (writeSettings p n).flash (p.settingsAddr.toNat / 4 + w) = p.settingsData w := by
  obtain ⟨haligned, hend, hwords⟩ := h.settings hset
  have hsize := h.pageSize_eq
  have heen : (n.setConfig .een).config = .een := rfl
  have hwrites := (forBelow_write (n := ((n.setConfig .een).erasePage p.pageSize p.settingsAddr).setConfig .wen) rfl
    p.settingsWords.toNat (fun w => wordAddr p.settingsAddr w) (fun _ w => p.settingsData w)
    (fun w => p.settingsAddr.toNat / 4 + w) (fun _ w => p.settingsData w)
    (fun w hw => wordAt_wordAddr (by omega)) fun _ _ _ => rfl).2
  have herased : ((n.setConfig .een).erasePage p.pageSize p.settingsAddr).flash =
      eraseWords (p.settingsAddr.toNat / 4) p.pageWords n.flash := by
    rw [Nvmc.erasePage, if_pos heen]
    rfl
  unfold writeSettings
  rw [if_pos hset]
  refine (congrFun hwrites _).trans ?_
  show forBelow p.settingsWords.toNat
    (fun flash w => programWord (p.settingsAddr.toNat / 4 + w) (p.settingsData w) flash)
    ((n.setConfig .een).erasePage p.pageSize p.settingsAddr).flash _ = _
  rw [herased]
  exact programWords_erased p.settingsData n.flash hwords hw

/-- **The copier installs what is staged.** -/
theorem activateAndReset_installed (h : Accepted b l) (prepared : Option BootloaderSettings) (flash : ℕ → BitVec 8) :
    Installed b l prepared flash (bytesOf (activateAndReset b l prepared flash).flash) := by
  set p := b.copyParams l (prepared.map settingsData) with hp
  have hformed : p.WellFormed := h.wellFormed _
  have hcount : p.pageCount = l.imagePages.toNat := h.pageCount _
  have hwords : p.pageWords = 1024 := (by decide : (4096 : BitVec 32).toNat / 4 = 1024)
  have hsize := hformed.size_le
  have hsizeWords : p.sizeWords = (l.imageSize.toNat + 3) / 4 := rfl
  have hpage : p.pageSize.toNat = 4096 := rfl
  have hdst : p.dstWord 0 = l.targetFlashBase.toNat / 4 := by simp [hp, FlashCopyParams.dstWord, FlashBuild.copyParams]
  have hsrc : p.srcWord 0 = l.stagingBase.toNat / 4 := by simp [hp, FlashCopyParams.srcWord, FlashBuild.copyParams]
  have hlast : p.dstWord p.pageCount = l.targetFlashBase.toNat / 4 + l.imagePages.toNat * 1024 := by
    rw [FlashCopyParams.dstWord, hcount, hwords]
    rfl
  obtain ⟨hstaging, htarget, -⟩ := h.aligned
  obtain ⟨-, -, -, -, hsettings⟩ := b.soc.flashEnd_bounds
  have hsettingsPage : 4096 ∣ b.soc.settingsAddr.toNat := by
    cases b.soc <;> decide
  have hdestination := h.destination_le
  have hbase := h.base
  obtain ⟨hcopied, hkept⟩ := forBelow_copied hformed (fun i hi n => copyPage_copied hformed hi n)
    ⟨.ren, wordsOf flash, []⟩
  have hafter : ∀ a, ¬p.InSettings a → (activateAndReset b l prepared flash).flash a =
      (forBelow p.pages.toNat (copyPage p) ⟨.ren, wordsOf flash, []⟩).flash a := fun a ha =>
    writeSettings_flash hformed _ ha
  have hin : ∀ a, p.InSettings a → prepared.isSome ∧ b.soc.settingsAddr.toNat / 4 ≤ a ∧
      a < b.soc.settingsAddr.toNat / 4 + 1024 := by
    rintro a ⟨hset, hle, hlt⟩
    rw [hwords] at hlt
    cases prepared with
    | none => exact absurd rfl hset
    | some settings => exact ⟨rfl, hle, hlt⟩
  refine ⟨List.map_congr_left fun k hmem => ?_, fun settings hprepared => List.ext_getElem (List.length_map _)
    fun k hk hk' => ?_, fun a hout hunset => ?_⟩
  · have hk := List.mem_range.mp hmem
    have hplace : (l.targetFlashBase.toNat + k) / 4 = p.dstWord 0 + k / 4 ∧
        (l.stagingBase.toNat + k) / 4 = p.srcWord 0 + k / 4 := by omega
    rw [← bytesOf_wordsOf flash]
    refine bytesOf_congr (by omega) ?_
    rw [hafter _ fun hset => ?_, hplace.1, hplace.2]
    · exact hcopied (k / 4) (by omega)
    · have hbounds := (hin _ hset).2
      rw [hcount, hpage] at hsize
      have hle : l.imageSize.toNat ≤ l.imagePages.toNat * 4096 := hsize
      omega
  · obtain rfl : prepared = some settings := hprepared
    have hlt : k < 28 := hk'
    simp only [readFlash, List.getElem_map, List.getElem_range]
    rw [← List.getD_eq_getElem _ 0 hk', ← bytesOf_wordsOf fun k => (settingsBytes settings).getD k 0]
    refine bytesOf_congr (by omega) ?_
    have hplace : (b.soc.settingsAddr.toNat + k) / 4 = p.settingsAddr.toNat / 4 + k / 4 := by
      show _ = b.soc.settingsAddr.toNat / 4 + k / 4
      omega
    have hset : p.settingsAddr ≠ 0 := by
      show b.soc.settingsAddr ≠ 0
      cases b.soc <;> decide
    rw [hplace]
    exact writeSettings_written hformed hset _ (show k / 4 < (7 : BitVec 32).toNat from by
      have hseven : (7 : BitVec 32).toNat = 7 := rfl
      omega)
  · rw [← bytesOf_wordsOf flash]
    refine bytesOf_congr rfl ?_
    rw [hafter _ fun hset => ?_]
    · refine hkept _ fun hdst' => hout ?_
      obtain ⟨hle, hlt⟩ := hdst'
      exact ⟨by omega, by omega⟩
    · obtain ⟨hsome, hle, hlt⟩ := hin _ hset
      exact hunset hsome ⟨by omega, by omega⟩

/-! ## The layout of a session -/

theorem parseReport_start {data : List (BitVec 8)} {request : Option BeginRequest}
    (h : parseReport data = .start request) : data.getD 0 0 = 0xF2 := by
  unfold parseReport at h
  dsimp only at h
  split_ifs at h with _ hstart
  all_goals exact hstart

/-- What a BEGIN that is accepted has passed, without MCUboot. -/
structure Granted (cfg : FlashConfig) (r : BeginRequest) (base : ℕ) : Prop where
  protocol : r.protocolVer = 1
  size_pos : 0 < r.imageSize
  size_le : r.imageSize ≤ cfg.maxImageSize
  board : cfg.boardMatches r.boardTarget = true
  target : r.flashBase ≠ 0 → 0x1000 ≤ r.flashBase ∧ r.flashBase ≤ cfg.flashBase ∧
    r.flashBase + r.imageSize ≤ cfg.flashEnd
  apart : cfg.flashBase + max r.imageSize cfg.flashUsed ≤ base
  base : base = cfg.stagingBase r.imageSize

theorem ite_error_eq_ok {ε α : Type} {p : Prop} [Decidable p] {e : ε} {x : Except ε α} {a : α} :
    (if p then .error e else x) = .ok a ↔ ¬p ∧ x = .ok a := by
  by_cases h : p <;> simp [h]

theorem granted_of_beginCheck {cfg : FlashConfig} {answers : BeginAnswers} {r : BeginRequest} {base : ℕ}
    (hplain : cfg.useMcuboot = false) (hok : beginCheck cfg answers r = .ok base) : Granted cfg r base := by
  rw [beginCheck, hplain] at hok
  simp only [ite_error_eq_ok] at hok
  obtain ⟨hversion, -, -, hsize, hboard, -, hlow, hhigh, hend, hover, hbase⟩ := hok
  rw [not_or, not_lt] at hsize
  have hbase : base = cfg.stagingBase r.imageSize := (Except.ok.inj hbase).symm
  refine ⟨not_not.mp hversion, Nat.pos_of_ne_zero hsize.1, hsize.2, not_not.mp hboard, fun hzero => ⟨?_, ?_, ?_⟩, ?_,
    hbase⟩
  · exact not_lt.mp fun hlt => hlow ⟨nofun, hzero, hlt⟩
  · exact not_lt.mp fun hlt => hhigh ⟨hzero, hlt⟩
  · exact not_lt.mp fun hlt => hend ⟨hzero, hlt⟩
  · rw [hbase]
    exact not_lt.mp fun hlt => hover ⟨nofun, hlt⟩

/-- **What the update machine accepts is accepted by the code**, whose computations do not wrap then. -/
theorem exists_layout {data : List (BitVec 8)} {answers : BeginAnswers} {request : BeginRequest} {base : ℕ}
    (hparsed : parseReport data = .start (some request)) (hok : beginCheck b.config answers request = .ok base) :
    ∃ l, b.layout data = some l ∧ l.stagingBase.toNat = base ∧ l.imageSize.toNat = request.imageSize ∧
      l.requestedBase.toNat = request.flashBase := by
  have hreport := parseReport_start hparsed
  have hnot : ¬data.getD 0 0 = 0xF0 := by
    rw [hreport]
    decide
  obtain ⟨hlength, himageSize, hflashBase, hprotocol, htarget⟩ : ¬data.length < 64 ∧
      (le32 (data.getD 2 0) (data.getD 3 0) (data.getD 4 0) (data.getD 5 0)).toNat = request.imageSize ∧
      (be16 (data.getD 61 0) (data.getD 62 0)).toNat * 4096 = request.flashBase ∧
      data.getD 12 0 = request.protocolVer ∧ (data.drop 13).take 47 = request.boardTarget := by
    have hstart := hparsed
    simp only [parseReport] at hstart
    rw [if_neg hnot, if_pos hreport] at hstart
    split_ifs at hstart with hshort
    · cases hstart
    · obtain rfl := Option.some.inj (Report.start.inj hstart)
      exact ⟨hshort, rfl, rfl, rfl, rfl⟩
  have hgranted := granted_of_beginCheck rfl hok
  obtain ⟨hpage, hlow, hhigh, hsettings, -⟩ := b.soc.flashEnd_bounds
  obtain ⟨hbase, hstart, haligned⟩ := b.flashBase_toNat
  have himage := b.image_le
  have hused : b.currentAppSize.toNat = b.flashUsed := by
    rw [FlashBuild.currentAppSize, BitVec.toNat_ofNat, Nat.mod_eq_of_lt (by omega)]
  have hmaxNat : b.maxImageSize.toNat = (b.soc.flashEnd.toNat - b.flashBase.toNat) / 2 := by
    rw [FlashBuild.maxImageSize, BitVec.toNat_udiv, BitVec.toNat_sub_of_le hstart]
    rfl
  have hmax : request.imageSize ≤ (b.soc.flashEnd.toNat - b.flashBase.toNat) / 2 := hgranted.size_le
  have hbelow : request.flashBase ≠ 0 → 0x1000 ≤ request.flashBase ∧ request.flashBase ≤ b.flashBase.toNat ∧
      request.flashBase + request.imageSize ≤ b.soc.flashEnd.toNat := hgranted.target
  have hregion : base =
      (b.soc.flashEnd.toNat - (request.imageSize + 4096 - 1) / 4096 * 4096) / 4096 * 4096 := hgranted.base
  have hapart : b.flashBase.toNat + max request.imageSize b.flashUsed ≤ base := hgranted.apart
  have hpos := hgranted.size_pos
  have hversion : ¬data.getD 12 0 ≠ 1 := not_not.mpr (hprotocol.trans hgranted.protocol)
  have hboard : ¬¬b.boardMatches ((data.drop 13).take 47) = true := not_not.mpr (htarget ▸ hgranted.board)
  have hshift := (pageShift_toNat (be16 (data.getD 61 0) (data.getD 62 0))).trans hflashBase
  unfold FlashBuild.layout
  dsimp only
  generalize (be16 (data.getD 61 0) (data.getD 62 0)).setWidth 32 <<< 12 = requested at hshift ⊢
  generalize le32 (data.getD 2 0) (data.getD 3 0) (data.getD 4 0) (data.getD 5 0) = size at himageSize ⊢
  rw [← himageSize] at hmax hbelow hregion hapart hpos
  rw [← hshift] at hbelow
  have hnonzero : size ≠ 0 := fun hzero => absurd hpos (by rw [hzero]; decide)
  have hle : size ≤ b.maxImageSize := by
    rw [BitVec.le_def, hmaxNat]
    exact hmax
  obtain ⟨-, hfits, -, -, hpages, hpagesSize, hstaging⟩ := sizes_of_le hnonzero hle
  have hzero : requested ≠ 0 → requested.toNat ≠ 0 := fun hne hnat => hne (BitVec.eq_of_toNat_eq hnat)
  have hmask : (b.soc.flashEnd - (size + 4096 - 1) / 4096 * 4096) &&& ~~~ (4096 - 1) =
      b.soc.flashEnd - (size + 4096 - 1) / 4096 * 4096 := and_pageMask (by omega)
  have hlimit : (b.flashBase + maxWord size b.currentAppSize).toNat =
      b.flashBase.toNat + max size.toNat b.flashUsed := by
    rw [BitVec.toNat_add, maxWord_toNat, hused, Nat.mod_eq_of_lt (by omega)]
  have hrequested : requested.toNat ≤ b.flashBase.toNat := by
    by_cases hnat : requested.toNat = 0
    · omega
    · exact (hbelow hnat).2.1
  have himageEnd : (requested + size).toNat = requested.toNat + size.toNat := by
    rw [BitVec.toNat_add, Nat.mod_eq_of_lt (by omega)]
  have hover : ¬b.soc.flashEnd - (size + 4096 - 1) / 4096 * 4096 < b.flashBase + maxWord size b.currentAppSize := by
    rw [BitVec.not_lt, BitVec.le_def, hlimit]
    omega
  rw [if_neg hlength, if_neg hversion, if_neg (not_or.mpr ⟨hnonzero, BitVec.not_lt.mpr hle⟩), if_neg hboard,
    if_neg fun hbad => absurd hbad.2 (BitVec.not_lt.mpr (hbelow (hzero hbad.1)).1),
    if_neg fun hbad => absurd hbad.2 (BitVec.not_lt.mpr (hbelow (hzero hbad.1)).2.1),
    if_neg fun hbad => absurd hbad.2 ?_, hmask, if_neg hover]
  · refine ⟨_, rfl, ?_, himageSize, hshift⟩
    dsimp only
    omega
  · rw [BitVec.not_lt, BitVec.le_def, himageEnd]
    exact (hbelow (hzero hbad.1)).2.2

/-- The base address of the image, in pages. -/
theorem Requests.base {u : UpdateArgs} {request : BeginRequest} (h : Requests u request) :
    request.flashBase = u.firmware.baseAddress / 4096 * 4096 := by
  obtain ⟨report, hreport, hparse⟩ := h
  unfold sendBegin at hreport
  split at hreport
  case isFalse => cases hreport
  case isTrue hfits =>
    obtain rfl := Option.some.inj hreport
    rw [parse_writeReport] at hparse
    obtain rfl := Option.some.inj (Report.start.inj hparse)
    have hhead : ([0xF2, BitVec.ofNat 8 receiverOtaId] ++ le32Bytes (.ofNat 32 u.imageSize) ++
        le32Bytes u.firmware.crc32 ++ be16Bytes (.ofNat 16 u.totalPackets) ++ [Ota.otaProtocolVersion] ++
        u.boardTarget.take (Ota.otaBoardTargetMax - 1) ++ List.replicate (Ota.otaBoardTargetMax -
          (u.boardTarget.take (Ota.otaBoardTargetMax - 1)).length) (0 : BitVec 8)).length = 61 := by
      have hname : (u.boardTarget.take (Ota.otaBoardTargetMax - 1)).length ≤ 47 := List.length_take_le _ _
      have hmax : Ota.otaBoardTargetMax = 48 := rfl
      simp only [List.length_append, List.length_replicate, List.length_cons, List.length_nil, le32Bytes, be16Bytes]
      omega
    dsimp only
    rw [List.getD_append_right _ _ _ _ hhead.le, List.getD_append_right _ _ _ _ (by rw [hhead]; decide), hhead]
    show (be16 ((BitVec.ofNat 16 (u.firmware.baseAddress >>> 12) >>> 8).setWidth 8)
      ((BitVec.ofNat 16 (u.firmware.baseAddress >>> 12)).setWidth 8)).toNat * 4096 = _
    rw [be16_be16Bytes, BitVec.toNat_ofNat, Nat.mod_eq_of_lt hfits.2.2.2, Nat.shiftRight_eq_div_pow]

end Activation

/-! ## The end of an update -/

/-- The writer is in the activation. -/
def Writer.Installs : Writer → Prop
  | .status .activate | .statusSend _ .activate | .activateRun => True
  | _ => False

section Update

variable {cfg : FlashConfig} {flash garbage : ℕ → BitVec 8} {s s' : RcvOta} {es : List UpdateEvent}
  {trace : List UpdateEvent} {ok : Bool}

/-- The writer enters the activation with its event, and says nothing of the image in it. -/
theorem writerStep_installs (hstep : s.writerStep cfg ok garbage = some (s', es)) (hnow : s'.writer.Installs) :
    es = [.activating] ∨ s.writer.Installs ∧ ∀ h : UpdateHistory,
      (es.foldl UpdateHistory.follow h).verified = h.verified := by
  cases hplace : s.writer with
  | activate =>
    simp only [RcvOta.writerStep, hplace] at hstep
    cases hstep
    exact .inl rfl
  | status next =>
    simp only [RcvOta.writerStep, hplace] at hstep
    cases hstep
    cases next <;> first | exact .inr ⟨trivial, fun _ => rfl⟩ | cases hnow
  | statusSend code next =>
    simp only [RcvOta.writerStep, hplace] at hstep
    cases hstep
    cases next <;> first | exact .inr ⟨trivial, fun _ => rfl⟩ | cases hnow
  | activateRun =>
    simp only [RcvOta.writerStep, hplace] at hstep
    cases hstep
    exact .inr ⟨trivial, fun _ => rfl⟩
  | got cmd =>
    simp only [RcvOta.writerStep, hplace] at hstep
    split at hstep
    · cases hstep
      cases hnow
    · cases hstep
      simp only [RcvOta.startCommand] at hnow
      repeat' split at hnow
      all_goals cases hnow
  | none | exited | gone =>
    simp only [RcvOta.writerStep, hplace] at hstep
    cases hstep
  | loop =>
    simp only [RcvOta.writerStep, hplace] at hstep
    cases hstep
    dsimp only at hnow
    split at hnow <;> cases hnow
  | get | erase | program | setError | give | verify | reading | verifyFail | verifyFailCode | verifyOk | activateFail
  | activateFailCode | completed =>
    simp only [RcvOta.writerStep, hplace] at hstep
    repeat' split at hstep
    all_goals first | cases hstep; done | cases hstep; cases hnow

theorem Writer.Installs.not_storing {writer : Writer} (h : writer.Installs) : writer.storing = false := by
  cases writer <;> first | rfl | cases h

/-- The HID command thread leaves a writer in the activation alone, and accepts no packet meanwhile. -/
theorem handlerStep_installs {h : UpdateHistory} (hown : UpdateInvariant h s) (hver : SessionInvariant cfg h s)
    (hstep : s.handlerStep cfg ok = some (s', es)) (hnow : s'.writer.Installs) :
    s.writer.Installs ∧ (es.foldl UpdateHistory.follow h).verified = h.verified := by
  have hmanned : s.writer.Installs → s.writer ≠ .none := by
    rintro hbefore hnone
    rw [hnone] at hbefore
    cases hbefore
  cases hplace : s.handler with
  | stopped k =>
    -- there is no writer then
    have hnone : ¬s.writer.Installs := fun hbefore => by
      have hpage := (hown.own (hmanned hbefore)).page
      rwa [hplace] at hpage
    simp only [RcvOta.handlerStep, hplace] at hstep
    cases k with
    | abort =>
      cases hstep
      exact absurd hnow hnone
    | start r answers =>
      simp only [RcvOta.afterStop] at hstep
      split at hstep
      · cases hstep
        exact absurd hnow hnone
      · split at hstep <;> cases hstep
        · exact absurd hnow hnone
        · cases hnow
  | filling seq payload copied =>
    have hstoring : ¬s.writer.Installs := fun hbefore => by
      have hpages := ((hver.session (hmanned hbefore)).early (.inr (by rw [hplace]; rfl))).writer
      rw [hbefore.not_storing] at hpages
      cases hpages
    simp only [RcvOta.handlerStep, hplace] at hstep
    split_ifs at hstep <;> cases hstep <;> exact absurd hnow hstoring
  | stopJoin k =>
    simp only [RcvOta.handlerStep, hplace] at hstep
    split at hstep <;> cases hstep
    · cases hnow
    · exact ⟨hnow, rfl⟩
  | _ =>
    simp only [RcvOta.handlerStep, hplace, RcvOta.put] at hstep
    repeat' split at hstep
    all_goals first | cases hstep; done | cases hstep; exact ⟨hnow, rfl⟩

/-- The writer is only ever in the activation of an image that was verified. -/
theorem verified_of_installs (hrun : (selfUpdateSystem cfg flash).Run trace s) (hnow : s.writer.Installs) :
    (UpdateHistory.of trace).verified = true := by
  induction hrun with
  | start => cases hnow
  | @snoc trace s op s' es hrun _ hstep ih =>
    have hstep : updateStep cfg s op = some (s', es) := hstep
    rw [UpdateHistory.of_append]
    cases op with
    | hid data answers =>
      simp only [updateStep] at hstep
      split at hstep
      case h_2 => cases hstep
      case h_1 hidle =>
        cases hstep
        obtain ⟨st, p, heq, -⟩ := processHid_spec cfg answers data s hidle
        rw [heq] at hnow
        exact ih hnow
    | handler ok =>
      obtain ⟨hbefore, hsame⟩ := handlerStep_installs (update_invariant hrun).1 (session_invariant hrun).1 hstep hnow
      exact hsame.trans (ih hbefore)
    | writer ok garbage =>
      rcases writerStep_installs hstep hnow with rfl | ⟨hbefore, hsame⟩
      · exact (verified_of_answer hrun hstep (.inr (List.mem_singleton_self _))).2
      · exact (hsame _).trans (ih hbefore)

/-- A byte of an image that was read back is the byte of the segments. -/
theorem readFlash_assigned {flash : ℕ → BitVec 8} {fill : BitVec 8} {segs : List (Segment (BitVec 8))} {base : ℕ}
    {image : List (BitVec 8)} (himage : IsImage fill segs base image)
    (hread : readFlash flash base image.length = image) {a : ℕ} {x : BitVec 8} (ha : assigned segs a = some x) :
    flash a = x := by
  obtain ⟨s, hs, hx⟩ := List.exists_of_findSome?_eq_some ha
  have hholds : s.Holds a := Segment.read_isSome.mp (by rw [hx]; rfl)
  have hle := (himage.base_le s hs).trans hholds.1
  have hlt : a - base < image.length := by
    have hstop := himage.stop_le s hs
    have hend := hholds.2
    omega
  have hbyte := himage.byte (a - base) hlt
  rw [Nat.add_sub_cancel' hle, ha, ← hread, readFlash, List.getElem?_map, List.getElem?_range hlt] at hbyte
  have hsame : flash (base + (a - base)) = x := Option.some.inj hbyte
  rwa [Nat.add_sub_cancel' hle] at hsame

/-- An image of one byte at 0x10000. -/
def oneByteBelow : UpdateArgs := ⟨[receiverOtaId], ⟨[7], 0x10000, 0x4C667A2E⟩, []⟩

end Update

end SlimeReceiver.SelfUpdate
