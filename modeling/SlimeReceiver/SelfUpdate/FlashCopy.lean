import Mathlib.Algebra.Order.Group.Nat
import Mathlib.Data.List.Basic
import SlimeReceiver.Library.NorFlash

/-! # The flash copier

`rcv_ota_flash_copy_from_ram`: the staged image is copied over the running one, page by page, by code in RAM.
Addresses and counters are `uint32_t`; the flash is a function from word numbers, the word at the address `4 * a`
being number `a`.

* **`Nvmc`** — the flash controller, with what was erased and written.
* **`copyPages`**, **`flashCopyFromRam`** — the copier; **`plainCopy`** erases and writes every page.
* **`FlashCopyParams.WellFormed`** — parameters the copier is made for.
* **`flash_copy_plain`** — it is a plain copy. -/

namespace SlimeReceiver.SelfUpdate

/-! ## The flash controller -/

/-- `NRF_NVMC->CONFIG`. -/
inductive NvmcConfig
  | ren
  | wen
  | een
  deriving DecidableEq

/-- What was done to the flash. -/
inductive NvmcOp
  | erased (page : BitVec 32)
  | written (addr : BitVec 32)
  deriving DecidableEq

/-- The flash controller. -/
structure Nvmc where
  config : NvmcConfig
  flash : ℕ → BitVec 32
  ops : List NvmcOp

namespace Nvmc

/-- The number of the word at an address. -/
def wordAt (addr : BitVec 32) : ℕ := addr.toNat / 4

def setConfig (config : NvmcConfig) (n : Nvmc) : Nvmc := { n with config := config }

/-- A write to `ERASEPAGE`. -/
def erasePage (pageSize page : BitVec 32) (n : Nvmc) : Nvmc :=
  if n.config = .een then { n with
    flash := eraseWords (wordAt page) (pageSize.toNat / 4) n.flash
    ops := n.ops ++ [NvmcOp.erased page] }
  else n

/-- A word stored in the flash. -/
def write (addr value : BitVec 32) (n : Nvmc) : Nvmc :=
  if n.config = .wen then { n with
    flash := programWord (wordAt addr) value n.flash
    ops := n.ops ++ [NvmcOp.written addr] }
  else n

def read (addr : BitVec 32) (n : Nvmc) : BitVec 32 := n.flash (wordAt addr)

end Nvmc

/-! ## The copier -/

/-- `struct flash_copy_params`. -/
structure FlashCopyParams where
  srcAddr : BitVec 32
  dstAddr : BitVec 32
  size : BitVec 32
  pageSize : BitVec 32
  settingsAddr : BitVec 32
  settingsData : ℕ → BitVec 32
  settingsWords : BitVec 32

/-- The address of `pointer[w]`. -/
def wordAddr (pointer : BitVec 32) (w : ℕ) : BitVec 32 := pointer + BitVec.ofNat 32 (4 * w)

namespace FlashCopyParams

/-- `pages`. -/
def pages (p : FlashCopyParams) : BitVec 32 := (p.size + p.pageSize - 1) / p.pageSize

/-- `dst_page`. -/
def dstPage (p : FlashCopyParams) (i : ℕ) : BitVec 32 := p.dstAddr + BitVec.ofNat 32 i * p.pageSize

/-- `src_page`. -/
def srcPage (p : FlashCopyParams) (i : ℕ) : BitVec 32 := p.srcAddr + BitVec.ofNat 32 i * p.pageSize

/-- `words`. -/
def words (p : FlashCopyParams) (i : ℕ) : BitVec 32 :=
  let remaining := p.size - BitVec.ofNat 32 i * p.pageSize
  if remaining < p.pageSize then (remaining + 3) / 4 else p.pageSize / 4

end FlashCopyParams

/-- The words of a page are the same already. -/
def pageMatch (p : FlashCopyParams) (i : ℕ) (n : Nvmc) : Bool :=
  (List.range (p.words i).toNat).all fun w =>
    n.read (wordAddr (p.dstPage i) w) == n.read (wordAddr (p.srcPage i) w)

/-- A page is erased and written from the staging area. -/
def rewritePage (p : FlashCopyParams) (n : Nvmc) (i : ℕ) : Nvmc :=
  let erased := (n.setConfig .een).erasePage p.pageSize (p.dstPage i)
  forBelow (p.words i).toNat
    (fun n w => n.write (wordAddr (p.dstPage i) w) (n.read (wordAddr (p.srcPage i) w))) (erased.setConfig .wen)

/-- One page of the copy loop. -/
def copyPage (p : FlashCopyParams) (n : Nvmc) (i : ℕ) : Nvmc :=
  if pageMatch p i n then n else rewritePage p n i

/-- The copy loop. -/
def copyPages (p : FlashCopyParams) (n : Nvmc) : Nvmc := forBelow p.pages.toNat (copyPage p) n

/-- The bootloader settings. -/
def writeSettings (p : FlashCopyParams) (n : Nvmc) : Nvmc :=
  if p.settingsAddr ≠ 0 then
    let erased := (n.setConfig .een).erasePage p.pageSize p.settingsAddr
    (forBelow p.settingsWords.toNat (fun n w => n.write (wordAddr p.settingsAddr w) (p.settingsData w))
      (erased.setConfig .wen)).setConfig .ren
  else n

/-- `rcv_ota_flash_copy_from_ram` up to the reset. -/
def flashCopyFromRam (p : FlashCopyParams) (n : Nvmc) : Nvmc :=
  writeSettings p ((copyPages p n).setConfig .ren)

/-- The copy that erases and writes every page. -/
def plainCopy (p : FlashCopyParams) (n : Nvmc) : Nvmc := forBelow p.pages.toNat (rewritePage p) n

/-! ## Parameters -/

namespace FlashCopyParams

/-- The number of pages, without overflow. -/
def pageCount (p : FlashCopyParams) : ℕ := (p.size.toNat + p.pageSize.toNat - 1) / p.pageSize.toNat

/-- The words of a page. -/
def pageWords (p : FlashCopyParams) : ℕ := p.pageSize.toNat / 4

/-- The words of the image, the last one perhaps in part. -/
def sizeWords (p : FlashCopyParams) : ℕ := (p.size.toNat + 3) / 4

/-- The first word of a destination page. -/
def dstWord (p : FlashCopyParams) (i : ℕ) : ℕ := p.dstAddr.toNat / 4 + i * p.pageWords

/-- The first word of a source page. -/
def srcWord (p : FlashCopyParams) (i : ℕ) : ℕ := p.srcAddr.toNat / 4 + i * p.pageWords

/-- A word of the destination pages. -/
def InDestination (p : FlashCopyParams) (a : ℕ) : Prop := p.dstWord 0 ≤ a ∧ a < p.dstWord p.pageCount

/-- A word of the settings page. -/
def InSettings (p : FlashCopyParams) (a : ℕ) : Prop :=
  p.settingsAddr ≠ 0 ∧ p.settingsAddr.toNat / 4 ≤ a ∧ a < p.settingsAddr.toNat / 4 + p.pageWords

/-- The source and the destination are whole pages of the address space and do not overlap, and the settings fit
their page. -/
structure WellFormed (p : FlashCopyParams) : Prop where
  page_pos : 0 < p.pageSize.toNat
  page_words : 4 ∣ p.pageSize.toNat
  src_aligned : p.pageSize.toNat ∣ p.srcAddr.toNat
  dst_aligned : p.pageSize.toNat ∣ p.dstAddr.toNat
  src_le : p.srcAddr.toNat + p.pageCount * p.pageSize.toNat ≤ 2 ^ 32
  dst_le : p.dstAddr.toNat + p.pageCount * p.pageSize.toNat ≤ 2 ^ 32
  disjoint : p.srcAddr.toNat + p.pageCount * p.pageSize.toNat ≤ p.dstAddr.toNat ∨
    p.dstAddr.toNat + p.pageCount * p.pageSize.toNat ≤ p.srcAddr.toNat
  settings : p.settingsAddr ≠ 0 → 4 ∣ p.settingsAddr.toNat ∧
    p.settingsAddr.toNat + p.pageSize.toNat ≤ 2 ^ 32 ∧ p.settingsWords.toNat ≤ p.pageWords

end FlashCopyParams

section Addresses

variable {p : FlashCopyParams} {i : ℕ}

open FlashCopyParams

theorem wordAt_wordAddr {pointer : BitVec 32} {w : ℕ} (h : pointer.toNat + 4 * w < 2 ^ 32) :
    Nvmc.wordAt (wordAddr pointer w) = pointer.toNat / 4 + w := by
  have hword : (wordAddr pointer w).toNat = pointer.toNat + 4 * w := by
    rw [wordAddr, BitVec.toNat_add, BitVec.toNat_ofNat, Nat.mod_eq_of_lt (by omega : 4 * w < 2 ^ 32),
      Nat.mod_eq_of_lt h]
  rw [Nvmc.wordAt, hword]
  omega

namespace FlashCopyParams.WellFormed

theorem pageSize_eq (h : p.WellFormed) : p.pageSize.toNat = 4 * p.pageWords :=
  (Nat.mul_div_cancel' h.page_words).symm

theorem pageWords_pos (h : p.WellFormed) : 0 < p.pageWords := by
  have hpos := h.page_pos
  rw [h.pageSize_eq] at hpos
  omega

/-- The image ends in its last page. -/
theorem size_le (h : p.WellFormed) : p.size.toNat ≤ p.pageCount * p.pageSize.toNat := by
  have hdiv := Nat.div_add_mod (p.size.toNat + p.pageSize.toNat - 1) p.pageSize.toNat
  have hmod := Nat.mod_lt (p.size.toNat + p.pageSize.toNat - 1) h.page_pos
  rw [pageCount, Nat.mul_comm]
  omega

/-- Every page but the last is full. -/
theorem page_lt (h : p.WellFormed) (hi : i < p.pageCount) : i * p.pageSize.toNat < p.size.toNat := by
  have hle : (i + 1) * p.pageSize.toNat ≤ p.pageCount * p.pageSize.toNat := Nat.mul_le_mul_right _ hi
  have hdiv := Nat.div_mul_le_self (p.size.toNat + p.pageSize.toNat - 1) p.pageSize.toNat
  have hpos := h.page_pos
  rw [Nat.succ_mul] at hle
  have hcount : p.pageCount * p.pageSize.toNat ≤ p.size.toNat + p.pageSize.toNat - 1 := hdiv
  omega

theorem pages_toNat (h : p.WellFormed) : p.pages.toNat = p.pageCount := by
  have hsum : p.size.toNat + p.pageSize.toNat ≤ 2 ^ 32 := by
    have hsize := h.size_le
    have hpage := p.pageSize.isLt
    rcases Nat.eq_zero_or_pos p.pageCount with hzero | hpos
    · rw [hzero, Nat.zero_mul] at hsize
      omega
    · -- two regions of that length lie beside each other
      have hone : p.pageSize.toNat ≤ p.pageCount * p.pageSize.toNat := Nat.le_mul_of_pos_left _ hpos
      have hsrc := h.src_le
      have hdst := h.dst_le
      have hdisjoint := h.disjoint
      omega
  have hpos := h.page_pos
  have hminus : (p.size + p.pageSize - 1).toNat = p.size.toNat + p.pageSize.toNat - 1 := by bv_omega
  rw [pages, BitVec.toNat_udiv, hminus]
  rfl

/-- The pages before the end. -/
theorem page_end (hi : i < p.pageCount) : i * p.pageWords + p.pageWords ≤ p.pageCount * p.pageWords := by
  have hle : (i + 1) * p.pageWords ≤ p.pageCount * p.pageWords := Nat.mul_le_mul_right _ hi
  rw [Nat.succ_mul] at hle
  exact hle

theorem offset_toNat (h : p.WellFormed) (hi : i < p.pageCount) :
    (BitVec.ofNat 32 i * p.pageSize).toNat = 4 * (i * p.pageWords) ∧
      4 * (i * p.pageWords) + p.pageSize.toNat ≤ p.pageCount * p.pageSize.toNat := by
  have hend := page_end hi
  have hcount : p.pageCount * p.pageSize.toNat = 4 * (p.pageCount * p.pageWords) := by
    rw [h.pageSize_eq, Nat.mul_left_comm]
  have hfits := h.src_le
  have hlt : i < 2 ^ 32 := by
    have hone : i * 1 ≤ i * p.pageWords := Nat.mul_le_mul_left _ h.pageWords_pos
    have hpos := h.pageWords_pos
    omega
  rw [hcount] at hfits ⊢
  rw [h.pageSize_eq]
  refine ⟨?_, by omega⟩
  rw [BitVec.toNat_mul, BitVec.toNat_ofNat, Nat.mod_eq_of_lt hlt, h.pageSize_eq, Nat.mul_left_comm,
    Nat.mod_eq_of_lt]
  have hpos := h.pageWords_pos
  omega

theorem dstPage_toNat (h : p.WellFormed) (hi : i < p.pageCount) :
    (p.dstPage i).toNat = p.dstAddr.toNat + 4 * (i * p.pageWords) ∧
      (p.dstPage i).toNat + p.pageSize.toNat ≤ 2 ^ 32 := by
  obtain ⟨hoffset, hend⟩ := h.offset_toNat hi
  have hfits := h.dst_le
  have hpos := h.page_pos
  have hpage : (p.dstPage i).toNat = p.dstAddr.toNat + 4 * (i * p.pageWords) := by
    rw [dstPage, BitVec.toNat_add, hoffset, Nat.mod_eq_of_lt]
    omega
  exact ⟨hpage, by omega⟩

theorem srcPage_toNat (h : p.WellFormed) (hi : i < p.pageCount) :
    (p.srcPage i).toNat = p.srcAddr.toNat + 4 * (i * p.pageWords) ∧
      (p.srcPage i).toNat + p.pageSize.toNat ≤ 2 ^ 32 := by
  obtain ⟨hoffset, hend⟩ := h.offset_toNat hi
  have hfits := h.src_le
  have hpos := h.page_pos
  have hpage : (p.srcPage i).toNat = p.srcAddr.toNat + 4 * (i * p.pageWords) := by
    rw [srcPage, BitVec.toNat_add, hoffset, Nat.mod_eq_of_lt]
    omega
  exact ⟨hpage, by omega⟩

/-- The words of a page that belong to the image. -/
theorem words_toNat (h : p.WellFormed) (hi : i < p.pageCount) :
    (p.words i).toNat = min p.pageWords (p.sizeWords - i * p.pageWords) := by
  obtain ⟨hoffset, -⟩ := h.offset_toNat hi
  have hlt := h.page_lt hi
  have hsize := h.pageSize_eq
  have hbound := p.pageSize.isLt
  have hi4 : i * p.pageSize.toNat = 4 * (i * p.pageWords) := by rw [hsize, Nat.mul_left_comm]
  have hremaining : (p.size - BitVec.ofNat 32 i * p.pageSize).toNat = p.size.toNat - 4 * (i * p.pageWords) := by
    rw [BitVec.toNat_sub_of_le (BitVec.le_def.mpr (by omega)), hoffset]
  unfold words sizeWords
  dsimp only
  split
  case isTrue hshort =>
    have hshort' : p.size.toNat - 4 * (i * p.pageWords) < p.pageSize.toNat := by
      rw [← hremaining]
      exact hshort
    have hround : (p.size - BitVec.ofNat 32 i * p.pageSize + 3).toNat =
        p.size.toNat - 4 * (i * p.pageWords) + 3 := by
      rw [BitVec.toNat_add, hremaining]
      exact Nat.mod_eq_of_lt (by change _ + 3 < _; omega)
    rw [BitVec.toNat_udiv, hround]
    change (p.size.toNat - 4 * (i * p.pageWords) + 3) / 4 = _
    omega
  case isFalse hlong =>
    have hlong' : p.pageSize.toNat ≤ p.size.toNat - 4 * (i * p.pageWords) := by
      rw [← hremaining]
      exact Nat.le_of_not_lt hlong
    rw [BitVec.toNat_udiv]
    change p.pageSize.toNat / 4 = _
    omega

theorem wordAt_dst (h : p.WellFormed) (hi : i < p.pageCount) {w : ℕ} (hw : w < p.pageWords) :
    Nvmc.wordAt (wordAddr (p.dstPage i) w) = p.dstWord i + w := by
  obtain ⟨hpage, hend⟩ := h.dstPage_toNat hi
  have hsize := h.pageSize_eq
  rw [wordAt_wordAddr (by omega), hpage, dstWord]
  omega

theorem wordAt_src (h : p.WellFormed) (hi : i < p.pageCount) {w : ℕ} (hw : w < p.pageWords) :
    Nvmc.wordAt (wordAddr (p.srcPage i) w) = p.srcWord i + w := by
  obtain ⟨hpage, hend⟩ := h.srcPage_toNat hi
  have hsize := h.pageSize_eq
  rw [wordAt_wordAddr (by omega), hpage, srcWord]
  omega

theorem words_le (h : p.WellFormed) (hi : i < p.pageCount) : (p.words i).toNat ≤ p.pageWords := by
  rw [h.words_toNat hi]
  exact Nat.min_le_left _ _

/-- The regions of words do not overlap. -/
theorem words_disjoint (h : p.WellFormed) : p.srcWord p.pageCount ≤ p.dstWord 0 ∨
    p.dstWord p.pageCount ≤ p.srcWord 0 := by
  have hcount : p.pageCount * p.pageSize.toNat = 4 * (p.pageCount * p.pageWords) := by
    rw [h.pageSize_eq, Nat.mul_left_comm]
  have hdisjoint := h.disjoint
  rw [hcount] at hdisjoint
  unfold srcWord dstWord
  omega

theorem pages_disjoint (h : p.WellFormed) (hi : i < p.pageCount) :
    p.srcWord i + p.pageWords ≤ p.dstWord 0 ∨ p.dstWord p.pageCount ≤ p.srcWord i := by
  have hend := page_end hi
  rcases h.words_disjoint with hbefore | hafter
  · left
    unfold srcWord dstWord at *
    omega
  · right
    unfold srcWord dstWord at *
    omega

end FlashCopyParams.WellFormed

end Addresses

/-! ## One page -/

/-- A page is copied: its words are those of the source page, and nothing else is changed. -/
def PageCopied (p : FlashCopyParams) (i : ℕ) (before after : ℕ → BitVec 32) : Prop :=
  (∀ w < (p.words i).toNat, after (p.dstWord i + w) = before (p.srcWord i + w)) ∧
    ∀ a, a < p.dstWord i ∨ p.dstWord i + p.pageWords ≤ a → after a = before a

section Pages

variable {p : FlashCopyParams} {i : ℕ}

/-- A loop of writes, as the loop of words it writes. -/
theorem forBelow_write {n : Nvmc} (hwen : n.config = .wen) (len : ℕ) (addr : ℕ → BitVec 32)
    (value : Nvmc → ℕ → BitVec 32) (target : ℕ → ℕ) (content : (ℕ → BitVec 32) → ℕ → BitVec 32)
    (haddr : ∀ w < len, Nvmc.wordAt (addr w) = target w)
    (hvalue : ∀ n, ∀ w < len, value n w = content n.flash w) :
    (forBelow len (fun n w => n.write (addr w) (value n w)) n).config = .wen ∧
      (forBelow len (fun n w => n.write (addr w) (value n w)) n).flash =
        forBelow len (fun flash w => programWord (target w) (content flash w) flash) n.flash := by
  induction len with
  | zero => exact ⟨hwen, rfl⟩
  | succ len ih =>
    obtain ⟨hconfig, hflash⟩ := ih (fun w hw => haddr w (hw.trans len.lt_succ_self))
      fun n w hw => hvalue n w (hw.trans len.lt_succ_self)
    rw [forBelow_succ, forBelow_succ, Nvmc.write, if_pos hconfig]
    refine ⟨hconfig, ?_⟩
    dsimp only
    rw [haddr len len.lt_succ_self, hvalue _ len len.lt_succ_self, hflash]

/-- What a rewritten page leaves in the flash. -/
theorem rewritePage_flash (h : p.WellFormed) (hi : i < p.pageCount) (n : Nvmc) :
    (rewritePage p n i).flash = copyWords (p.dstWord i) (p.srcWord i) (p.words i).toNat
      (eraseWords (p.dstWord i) p.pageWords n.flash) := by
  have hpage : Nvmc.wordAt (p.dstPage i) = p.dstWord i := by
    rw [Nvmc.wordAt, (h.dstPage_toNat hi).1, FlashCopyParams.dstWord]
    omega
  have hwords := h.words_le hi
  have herased : ((n.setConfig .een).erasePage p.pageSize (p.dstPage i)).flash =
      eraseWords (p.dstWord i) p.pageWords n.flash := by
    have heen : (n.setConfig .een).config = .een := rfl
    rw [Nvmc.erasePage, if_pos heen, ← hpage]
    rfl
  have hwrites := (forBelow_write (n := ((n.setConfig .een).erasePage p.pageSize (p.dstPage i)).setConfig .wen) rfl
    (p.words i).toNat (fun w => wordAddr (p.dstPage i) w) (fun n w => n.read (wordAddr (p.srcPage i) w))
    (fun w => p.dstWord i + w) (fun flash w => flash (p.srcWord i + w))
    (fun w hw => h.wordAt_dst hi (hw.trans_le hwords))
    fun n w hw => congrArg n.flash (h.wordAt_src hi (hw.trans_le hwords))).2
  rw [copyWords, ← herased]
  exact hwrites

theorem rewritePage_copied (h : p.WellFormed) (hi : i < p.pageCount) (n : Nvmc) :
    PageCopied p i n.flash (rewritePage p n i).flash := by
  have hwords := h.words_le hi
  have hend := FlashCopyParams.WellFormed.page_end hi
  have hdisjoint : p.srcWord i + (p.words i).toNat ≤ p.dstWord i ∨ p.dstWord i + p.pageWords ≤ p.srcWord i := by
    rcases h.pages_disjoint hi with hbefore | hafter
    · left
      unfold FlashCopyParams.srcWord FlashCopyParams.dstWord at *
      omega
    · right
      unfold FlashCopyParams.srcWord FlashCopyParams.dstWord at *
      omega
  rw [rewritePage_flash h hi]
  exact ⟨fun w hw => copyWords_erased hwords hdisjoint hw,
    fun a ha => copyWords_eraseWords_of_not_mem hwords hdisjoint ha⟩

theorem copyPage_copied (h : p.WellFormed) (hi : i < p.pageCount) (n : Nvmc) :
    PageCopied p i n.flash (copyPage p n i).flash := by
  unfold copyPage
  split
  case isTrue hmatch =>
    refine ⟨fun w hw => ?_, fun _ _ => rfl⟩
    have hsame := List.all_eq_true.mp hmatch w (List.mem_range.mpr hw)
    have hlt := hw.trans_le (h.words_le hi)
    rw [beq_iff_eq, Nvmc.read, Nvmc.read, h.wordAt_dst hi hlt, h.wordAt_src hi hlt] at hsame
    exact hsame
  case isFalse => exact rewritePage_copied h hi n

/-- The first `k` pages are copied, and nothing else is changed. -/
def PagesCopied (p : FlashCopyParams) (k : ℕ) (before after : ℕ → BitVec 32) : Prop :=
  (∀ w < min (k * p.pageWords) p.sizeWords, after (p.dstWord 0 + w) = before (p.srcWord 0 + w)) ∧
    ∀ a, a < p.dstWord 0 ∨ p.dstWord k ≤ a → after a = before a

/-- One more page is copied, from a source that the loop has not touched. -/
theorem PagesCopied.next (h : p.WellFormed) (hi : i < p.pageCount) {before during after : ℕ → BitVec 32}
    (hpages : PagesCopied p i before during) (hnext : PageCopied p i during after) :
    PagesCopied p (i + 1) before after := by
  obtain ⟨hcopied, hkept⟩ := hpages
  obtain ⟨hpage, hframe⟩ := hnext
  have hend := FlashCopyParams.WellFormed.page_end hi
  have hwords := h.words_toNat hi
  have hsucc : (i + 1) * p.pageWords = i * p.pageWords + p.pageWords := Nat.succ_mul _ _
  have hstart : p.dstWord 0 + i * p.pageWords = p.dstWord i ∧ p.srcWord 0 + i * p.pageWords = p.srcWord i := by
    unfold FlashCopyParams.dstWord FlashCopyParams.srcWord
    omega
  constructor
  · intro w hw
    rw [hsucc] at hw
    by_cases hold : w < i * p.pageWords
    · rw [hframe _ (.inl (by omega))]
      exact hcopied w (by omega)
    · obtain ⟨k, rfl⟩ := Nat.exists_eq_add_of_le (Nat.le_of_not_lt hold)
      have hsource : p.srcWord i + k < p.dstWord 0 ∨ p.dstWord i ≤ p.srcWord i + k := by
        rcases h.pages_disjoint hi with hbefore | hafter
        · left
          omega
        · right
          unfold FlashCopyParams.srcWord FlashCopyParams.dstWord at *
          omega
      rw [← Nat.add_assoc, ← Nat.add_assoc, hstart.1, hstart.2, hpage k (by omega)]
      exact hkept _ hsource
  · intro a ha
    have hlast : p.dstWord (i + 1) = p.dstWord i + p.pageWords := by
      unfold FlashCopyParams.dstWord
      omega
    have hfirst : p.dstWord 0 ≤ p.dstWord i := by omega
    rw [hframe a (by omega)]
    exact hkept a (by omega)

/-- A loop that copies each page copies the image and changes nothing but the destination. -/
theorem forBelow_copied (h : p.WellFormed) {body : Nvmc → ℕ → Nvmc}
    (hbody : ∀ i < p.pageCount, ∀ n, PageCopied p i n.flash (body n i).flash) (n : Nvmc) :
    (∀ w < p.sizeWords, (forBelow p.pages.toNat body n).flash (p.dstWord 0 + w) = n.flash (p.srcWord 0 + w)) ∧
      ∀ a, ¬ p.InDestination a → (forBelow p.pages.toNat body n).flash a = n.flash a := by
  rw [h.pages_toNat]
  have hloop : PagesCopied p p.pageCount n.flash (forBelow p.pageCount body n).flash := by
    refine forBelow_invariant (P := fun k (r : Nvmc) => PagesCopied p k n.flash r.flash)
      ⟨fun w hw => absurd hw (by omega), fun _ _ => rfl⟩ fun i r hi hr => ?_
    exact hr.next h hi (hbody i hi r)
  constructor
  · intro w hw
    refine hloop.1 w (lt_min ?_ hw)
    have hsize := h.size_le
    rw [h.pageSize_eq, Nat.mul_left_comm] at hsize
    unfold FlashCopyParams.sizeWords at hw
    omega
  · intro a ha
    refine hloop.2 a ?_
    unfold FlashCopyParams.InDestination at ha
    omega

/-- The settings change nothing outside their page. -/
theorem writeSettings_flash (h : p.WellFormed) (n : Nvmc) {a : ℕ} (ha : ¬ p.InSettings a) :
    (writeSettings p n).flash a = n.flash a := by
  unfold writeSettings
  split
  case isTrue hset =>
    obtain ⟨haligned, hend, hwords⟩ := h.settings hset
    have hsize := h.pageSize_eq
    have hout : a < p.settingsAddr.toNat / 4 ∨ p.settingsAddr.toNat / 4 + p.pageWords ≤ a := by
      by_contra hin
      exact ha ⟨hset, by omega⟩
    have heen : (n.setConfig .een).config = .een := rfl
    have hwrites := (forBelow_write (n := ((n.setConfig .een).erasePage p.pageSize p.settingsAddr).setConfig .wen) rfl
      p.settingsWords.toNat (fun w => wordAddr p.settingsAddr w) (fun _ w => p.settingsData w)
      (fun w => p.settingsAddr.toNat / 4 + w) (fun _ w => p.settingsData w)
      (fun w hw => wordAt_wordAddr (by omega)) fun _ _ _ => rfl).2
    have hkept : forBelow p.settingsWords.toNat
        (fun flash w => programWord (p.settingsAddr.toNat / 4 + w) (p.settingsData w) flash)
        (eraseWords (p.settingsAddr.toNat / 4) p.pageWords n.flash) a =
          eraseWords (p.settingsAddr.toNat / 4) p.pageWords n.flash a :=
      forBelow_frame (fun flash : ℕ → BitVec 32 => flash a)
        (fun flash w hw => Function.update_of_ne (by omega) _ _) _
    calc _ = (forBelow p.settingsWords.toNat
          (fun flash w => programWord (p.settingsAddr.toNat / 4 + w) (p.settingsData w) flash)
          ((n.setConfig .een).erasePage p.pageSize p.settingsAddr).flash) a := congrFun hwrites a
      _ = (forBelow p.settingsWords.toNat
          (fun flash w => programWord (p.settingsAddr.toNat / 4 + w) (p.settingsData w) flash)
          (eraseWords (p.settingsAddr.toNat / 4) p.pageWords n.flash)) a := by
        rw [Nvmc.erasePage, if_pos heen]
        rfl
      _ = eraseWords (p.settingsAddr.toNat / 4) p.pageWords n.flash a := hkept
      _ = n.flash a := eraseWords_of_not_mem hout
  case isFalse => rfl

end Pages

/-! ## The copy -/

/-- After the copy loop every word of the destination is the word of the source, as if every page had been erased and
written; nothing else is changed, the source in particular; and the settings change nothing outside their page. -/
theorem flash_copy_plain {p : FlashCopyParams} (h : p.WellFormed) (n : Nvmc) :
    (∀ w < p.sizeWords, (copyPages p n).flash (p.dstWord 0 + w) = n.flash (p.srcWord 0 + w)) ∧
    (∀ w < p.sizeWords, (copyPages p n).flash (p.dstWord 0 + w) = (plainCopy p n).flash (p.dstWord 0 + w)) ∧
    (∀ a, ¬ p.InDestination a → (copyPages p n).flash a = n.flash a) ∧
    (∀ w < p.pageCount * p.pageWords, (copyPages p n).flash (p.srcWord 0 + w) = n.flash (p.srcWord 0 + w)) ∧
    (∀ a, ¬ p.InDestination a → ¬ p.InSettings a → (flashCopyFromRam p n).flash a = n.flash a) ∧
    ∀ a, ¬ p.InSettings a → (flashCopyFromRam p n).flash a = (copyPages p n).flash a := by
  obtain ⟨hcopied, hkept⟩ := forBelow_copied h (fun i hi n => copyPage_copied h hi n) n
  obtain ⟨hplain, -⟩ := forBelow_copied h (fun i hi n => rewritePage_copied h hi n) n
  have hsettings : ∀ a, ¬ p.InSettings a → (flashCopyFromRam p n).flash a = (copyPages p n).flash a :=
    fun a ha => writeSettings_flash h _ ha
  refine ⟨hcopied, fun w hw => (hcopied w hw).trans (hplain w hw).symm, hkept, fun w hw => hkept _ ?_,
    fun a hdst hset => (hsettings a hset).trans (hkept a hdst), hsettings⟩
  have hdisjoint := h.words_disjoint
  unfold FlashCopyParams.InDestination FlashCopyParams.srcWord FlashCopyParams.dstWord at *
  omega

/-- An image of 5000 bytes, copied from 0x3000 to 0x1000. -/
def sampleCopy : FlashCopyParams where
  srcAddr := 0x3000
  dstAddr := 0x1000
  size := 5000
  pageSize := 4096
  settingsAddr := 0xFF000
  settingsData _ := 1
  settingsWords := 7

/-- A flash whose words are their own addresses. -/
def sampleFlash : Nvmc := ⟨.ren, fun a => BitVec.ofNat 32 a, []⟩

theorem flash_copy_plain_sample :
    (copyPages sampleCopy sampleFlash).flash (sampleCopy.dstWord 0 + 1249) =
      sampleFlash.flash (sampleCopy.srcWord 0 + 1249) ∧
    (flashCopyFromRam sampleCopy sampleFlash).flash 3072 = sampleFlash.flash 3072 := by
  have hformed : sampleCopy.WellFormed := by
    constructor
    all_goals decide
  obtain ⟨hcopied, -, -, -, hkept, -⟩ := flash_copy_plain hformed sampleFlash
  refine ⟨hcopied 1249 (by decide), hkept 3072 ?_ ?_⟩
  · unfold FlashCopyParams.InDestination
    decide
  · unfold FlashCopyParams.InSettings
    decide

end SlimeReceiver.SelfUpdate
