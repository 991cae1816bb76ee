import Mathlib.Algebra.Ring.Nat
import SlimeReceiver.Library.ByteImage
import SlimeReceiver.Library.PythonInt
import SlimeReceiver.Ota.HostUpdate
import SlimeReceiver.SelfUpdate.Machine

/-! # Firmware files

`parse_uf2` and `parse_hex` of `esb_ota.py`: what the blocks or the records of a file hold at and above the offset of
the application is put together to one image, with 0xFF in the gaps. A text file is what its lines are.

* **`Failure`** — the exceptions.
* **`parseUf2`**, **`parseHex`** — the parsers.
* **`uf2Contents`**, **`hexContents`** — what a file says, without the offset.
* **`firmware_image`** — the image is that of the blocks or records that begin in the application. -/

namespace SlimeReceiver.FirmwareFile

open Ota (FirmwareImage)
open SelfUpdate (crc32Ieee)

/-- What the parsers raise. -/
inductive Failure
  /-- "UF2 file size (…) not a multiple of 512" -/
  | notMultiple (length : ℕ)
  /-- "Block …: bad start magic" -/
  | badStartMagic (block : ℕ)
  /-- "Block …: bad end magic" -/
  | badEndMagic (block : ℕ)
  /-- "No application blocks found in UF2" -/
  | noBlocks
  /-- `bytes.fromhex` of something else. -/
  | notHex
  /-- "Line …: record too short" -/
  | tooShort (line : ℕ)
  /-- "Line …: checksum mismatch (got …, expected …)" -/
  | checksumMismatch (line checksum expected : ℕ)
  /-- "No application data found in HEX file" -/
  | noData
  /-- An `IndexError` for a byte behind the end. -/
  | indexError
  deriving DecidableEq

/-- All but one are a `ValueError`. -/
def Failure.isValueError : Failure → Bool
  | indexError => false
  | _ => true

/-- The end of both parsers. -/
def imageOf (nothing : Failure) (segs : List (Segment (BitVec 8))) : Except Failure FirmwareImage :=
  match assemble 0xFF segs with
  | none => .error nothing
  | some (base, image) => .ok ⟨image, base, crc32Ieee image⟩

/-! ## UF2 -/

def uf2MagicStart0 : BitVec 32 := 0x0A324655
def uf2MagicStart1 : BitVec 32 := 0x9E5D5157
def uf2MagicEnd : BitVec 32 := 0x0AB16F30
def uf2BlockSize : ℕ := 512
def uf2DataSize : ℕ := 256

/-- A word of a block. -/
def word (block : List (BitVec 8)) (offset : ℕ) : BitVec 32 :=
  le32 (block.getD offset 0) (block.getD (offset + 1) 0) (block.getD (offset + 2) 0) (block.getD (offset + 3) 0)

/-- The blocks of a file. -/
def toBlocks (raw : List (BitVec 8)) : List (List (BitVec 8)) :=
  (List.range (raw.length / uf2BlockSize)).map fun i => (raw.drop (i * uf2BlockSize)).take uf2BlockSize

/-- What is taken of a block. -/
def appBlock (flashOffset i : ℕ) (block : List (BitVec 8)) : Except Failure (Option (Segment (BitVec 8))) :=
  if word block 0 ≠ uf2MagicStart0 ∨ word block 4 ≠ uf2MagicStart1 then .error (.badStartMagic i)
  else if word block 508 ≠ uf2MagicEnd then .error (.badEndMagic i)
  else
    let addr := (word block 12).toNat
    let size := (word block 16).toNat
    let size := if size > uf2DataSize then uf2DataSize else size
    if addr < flashOffset then .ok none else .ok (some ⟨addr, (block.drop 32).take size⟩)

/-- The loop over the blocks, from block `i` on. -/
def appBlocks (flashOffset : ℕ) : ℕ → List (List (BitVec 8)) → Except Failure (List (Segment (BitVec 8)))
  | _, [] => .ok []
  | i, block :: rest =>
    match appBlock flashOffset i block with
    | .error e => .error e
    | .ok app => (appBlocks flashOffset (i + 1) rest).map (app.toList ++ ·)

/-- `parse_uf2`. -/
def parseUf2 (raw : List (BitVec 8)) (flashOffset : ℕ) : Except Failure FirmwareImage :=
  if raw.length % uf2BlockSize ≠ 0 then .error (.notMultiple raw.length)
  else
    match appBlocks flashOffset 0 (toBlocks raw) with
    | .error e => .error e
    | .ok blocks => imageOf .noBlocks blocks

/-! ## Intel HEX -/

/-- What `str.strip` takes for a space. -/
def isPySpace (c : Char) : Bool :=
  NumberText.isSpace c || (0x1C ≤ c.toNat && c.toNat ≤ 0x1F) || c.toNat == 0x85 || c.toNat == 0xA0 ||
    c.toNat == 0x1680 || (0x2000 ≤ c.toNat && c.toNat ≤ 0x200A) || c.toNat == 0x2028 || c.toNat == 0x2029 ||
    c.toNat == 0x202F || c.toNat == 0x205F || c.toNat == 0x3000

/-- `line.strip()`. -/
def stripped (line : List Char) : List Char :=
  ((line.dropWhile isPySpace).reverse.dropWhile isPySpace).reverse

/-- `bytes.fromhex`: spaces may stand between the bytes. -/
def fromHex : List Char → Option (List (BitVec 8))
  | [] => some []
  | c :: cs =>
    if NumberText.isSpace c then fromHex cs
    else
      match cs with
      | [] => none
      | d :: cs =>
        match NumberText.digitIn 16 c, NumberText.digitIn 16 d with
        | some high, some low => (fromHex cs).map (BitVec.ofNat 8 (16 * high + low) :: ·)
        | _, _ => none

/-- What follows the colon of a record; `none` for another line. -/
def recordText (line : List Char) : Option (List Char) :=
  match stripped line with
  | ':' :: text => some text
  | _ => none

/-- A record. -/
structure Record where
  recType : ℕ
  address : ℕ
  data : List (BitVec 8)

/-- A byte of a record. -/
def byteAt (raw : List (BitVec 8)) (i : ℕ) : ℕ := (raw.getD i 0).toNat

/-- The sum of the first bytes. -/
def sumOf (raw : List (BitVec 8)) (n : ℕ) : ℕ := ((raw.take n).map BitVec.toNat).sum

/-- The record in line `lineNo`. -/
def readRecord (lineNo : ℕ) (text : List Char) : Except Failure Record :=
  match fromHex text with
  | none => .error .notHex
  | some raw =>
    if raw.length < 5 then .error (.tooShort lineNo)
    else
      let byteCount := byteAt raw 0
      let address := byteAt raw 1 * 0x100 + byteAt raw 2
      let recType := byteAt raw 3
      let data := (raw.drop 4).take byteCount
      match raw[4 + byteCount]? with
      | none => .error .indexError
      | some checksum =>
        -- `(~calc_sum + 1) & 0xFF`
        let calcCheck := (0x100 - sumOf raw (4 + byteCount) % 0x100) % 0x100
        if checksum.toNat ≠ calcCheck then .error (.checksumMismatch lineNo checksum.toNat calcCheck)
        else .ok ⟨recType, address, data⟩

/-- The first two bytes of the data. -/
def upper : List (BitVec 8) → Option ℕ
  | high :: low :: _ => some (high.toNat * 0x100 + low.toNat)
  | _ => none

/-- The loop over the lines, from line `lineNo` on and with `base_addr`. -/
def readRecords (flashOffset : ℕ) : ℕ → ℕ → List (List Char) → Except Failure (List (Segment (BitVec 8)))
  | _, _, [] => .ok []
  | lineNo, baseAddr, line :: rest =>
    match recordText line with
    | none => readRecords flashOffset (lineNo + 1) baseAddr rest
    | some text =>
      match readRecord lineNo text with
      | .error e => .error e
      | .ok record =>
        match record.recType with
        | 0x00 =>
          let fullAddr := baseAddr + record.address
          if fullAddr ≥ flashOffset then
            (readRecords flashOffset (lineNo + 1) baseAddr rest).map (⟨fullAddr, record.data⟩ :: ·)
          else readRecords flashOffset (lineNo + 1) baseAddr rest
        | 0x01 => .ok []
        | 0x02 =>
          match upper record.data with
          | none => .error .indexError
          | some upper => readRecords flashOffset (lineNo + 1) (upper <<< 4) rest
        | 0x04 =>
          match upper record.data with
          | none => .error .indexError
          | some upper => readRecords flashOffset (lineNo + 1) (upper <<< 16) rest
        | _ => readRecords flashOffset (lineNo + 1) baseAddr rest

/-- `parse_hex`. -/
def parseHex (lines : List (List Char)) (flashOffset : ℕ) : Except Failure FirmwareImage :=
  match readRecords flashOffset 1 0 lines with
  | .error e => .error e
  | .ok records => imageOf .noData records

/-! ## What the files say -/

/-- A block has the magic numbers. -/
def IsBlock (block : List (BitVec 8)) : Prop :=
  word block 0 = uf2MagicStart0 ∧ word block 4 = uf2MagicStart1 ∧ word block 508 = uf2MagicEnd

instance (block : List (BitVec 8)) : Decidable (IsBlock block) := inferInstanceAs (Decidable (_ ∧ _ ∧ _))

/-- The bytes a block has for its address; there is room for 476. -/
def payload (block : List (BitVec 8)) : Segment (BitVec 8) :=
  ⟨(word block 12).toNat, (block.drop 32).take (min (word block 16).toNat 476)⟩

/-- The bytes of a UF2 file; `none` if it is malformed. -/
def uf2Contents (raw : List (BitVec 8)) : Option (List (Segment (BitVec 8))) :=
  if raw.length % uf2BlockSize = 0 ∧ ∀ block ∈ toBlocks raw, IsBlock block then some ((toBlocks raw).map payload)
  else none

/-- What is kept of it: the first 256 bytes of a block that begins in the application. -/
def uf2Part (flashOffset : ℕ) (s : Segment (BitVec 8)) : Option (Segment (BitVec 8)) :=
  if flashOffset ≤ s.addr then some ⟨s.addr, s.bytes.take uf2DataSize⟩ else none

/-- The bytes of a record with as many as it says and a right checksum; an extended address has two. -/
def IsRecord (raw : List (BitVec 8)) : Prop :=
  5 + byteAt raw 0 ≤ raw.length ∧ sumOf raw (5 + byteAt raw 0) % 0x100 = 0 ∧
    (byteAt raw 3 = 0x02 ∨ byteAt raw 3 = 0x04 → 2 ≤ byteAt raw 0)

instance (raw : List (BitVec 8)) : Decidable (IsRecord raw) := inferInstanceAs (Decidable (_ ∧ _ ∧ _))

/-- A record that ends before the bytes it should have. -/
def IsTruncated (raw : List (BitVec 8)) : Prop :=
  5 ≤ raw.length ∧
    (raw.length < 5 + byteAt raw 0 ∨ (byteAt raw 3 = 0x02 ∨ byteAt raw 3 = 0x04) ∧ byteAt raw 0 < 2)

/-- What a line says. -/
inductive Meaning
  | nothing
  | data (address : ℕ) (bytes : List (BitVec 8))
  | endOfFile
  | extended (base : ℕ)
  | malformed

/-- What the bytes of a record say. -/
def recordMeaning (raw : List (BitVec 8)) : Meaning :=
  if IsRecord raw then
    match byteAt raw 3 with
    | 0x00 => .data (byteAt raw 1 * 0x100 + byteAt raw 2) ((raw.drop 4).take (byteAt raw 0))
    | 0x01 => .endOfFile
    | 0x02 => .extended ((byteAt raw 4 * 0x100 + byteAt raw 5) <<< 4)
    | 0x04 => .extended ((byteAt raw 4 * 0x100 + byteAt raw 5) <<< 16)
    | _ => .nothing
  else .malformed

def meaning (line : List Char) : Meaning :=
  match recordText line with
  | none => .nothing
  | some text =>
    match fromHex text with
    | none => .malformed
    | some raw => recordMeaning raw

/-- A line with a truncated record. -/
def Truncated (line : List Char) : Prop :=
  ∃ text raw, recordText line = some text ∧ fromHex text = some raw ∧ IsTruncated raw

/-- The bytes of a HEX file up to its end; `none` if it is malformed. -/
def hexContents : ℕ → List (List Char) → Option (List (Segment (BitVec 8)))
  | _, [] => some []
  | base, line :: rest =>
    match meaning line with
    | .nothing => hexContents base rest
    | .data address bytes => (hexContents base rest).map (⟨base + address, bytes⟩ :: ·)
    | .endOfFile => some []
    | .extended base => hexContents base rest
    | .malformed => none

/-- What is kept of it: the records that begin in the application. -/
def hexPart (flashOffset : ℕ) (s : Segment (BitVec 8)) : Option (Segment (BitVec 8)) :=
  if flashOffset ≤ s.addr then some s else none

theorem trims_uf2Part (flashOffset : ℕ) : Trims flashOffset (uf2Part flashOffset) := by
  intro s t h
  unfold uf2Part at h
  split at h
  case isTrue hle =>
    obtain rfl := Option.some.inj h
    exact ⟨hle, rfl, List.take_prefix _ _⟩
  case isFalse => cases h

theorem trims_hexPart (flashOffset : ℕ) : Trims flashOffset (hexPart flashOffset) := by
  intro s t h
  unfold hexPart at h
  split at h
  case isTrue hle =>
    obtain rfl := Option.some.inj h
    exact ⟨hle, rfl, List.prefix_rfl⟩
  case isFalse => cases h

/-! ## The parsers read what the files say -/

/-- A malformed file is not read; of another one the image is made of what is kept. -/
structure Reads (part : Segment (BitVec 8) → Option (Segment (BitVec 8))) (truncated : Prop)
    (contents : Option (List (Segment (BitVec 8)))) (result : Except Failure FirmwareImage) : Prop where
  malformed : contents = none → ∃ e, result = .error e ∧ (e.isValueError = true ∨ truncated)
  image : ∀ segs, contents = some segs →
    ∃ e : Failure, e.isValueError = true ∧ result = imageOf e (segs.filterMap part)

section Uf2

variable {flashOffset i : ℕ} {block : List (BitVec 8)} {blocks : List (List (BitVec 8))}

theorem appBlock_of_isBlock (h : IsBlock block) :
    appBlock flashOffset i block = .ok (uf2Part flashOffset (payload block)) := by
  obtain ⟨hstart₀, hstart₁, hend⟩ := h
  have hmagic : ¬(word block 0 ≠ uf2MagicStart0 ∨ word block 4 ≠ uf2MagicStart1) := by
    rintro (hne | hne)
    · exact hne hstart₀
    · exact hne hstart₁
  rw [appBlock, if_neg hmagic, if_neg (fun hne => hne hend)]
  have hbytes : (payload block).bytes.take uf2DataSize =
      (block.drop 32).take (if (word block 16).toNat > uf2DataSize then uf2DataSize else (word block 16).toNat) := by
    have hsize : min uf2DataSize (min (word block 16).toNat 476) =
        if (word block 16).toNat > uf2DataSize then uf2DataSize else (word block 16).toNat := by
      unfold uf2DataSize
      split <;> omega
    rw [← hsize, payload, List.take_take]
  have haddr : (payload block).addr = (word block 12).toNat := rfl
  unfold uf2Part
  rw [hbytes, haddr]
  by_cases hlt : (word block 12).toNat < flashOffset
  · rw [if_neg (Nat.not_le.mpr hlt), if_pos hlt]
  · rw [if_pos (Nat.not_lt.mp hlt), if_neg hlt]

theorem appBlock_of_not_isBlock (flashOffset i : ℕ) (h : ¬IsBlock block) :
    ∃ e, appBlock flashOffset i block = .error e ∧ e.isValueError = true := by
  unfold appBlock
  by_cases hstart : word block 0 ≠ uf2MagicStart0 ∨ word block 4 ≠ uf2MagicStart1
  · exact ⟨_, if_pos hstart, rfl⟩
  · have hend : word block 508 ≠ uf2MagicEnd := by
      intro hend
      rw [not_or, not_not, not_not] at hstart
      exact h ⟨hstart.1, hstart.2, hend⟩
    rw [if_neg hstart]
    exact ⟨_, if_pos hend, rfl⟩

/-- The loop takes its part of every block. -/
theorem appBlocks_of_isBlock (h : ∀ block ∈ blocks, IsBlock block) :
    appBlocks flashOffset i blocks = .ok ((blocks.map payload).filterMap (uf2Part flashOffset)) := by
  induction blocks generalizing i with
  | nil => rfl
  | cons block rest ih =>
    have hrest : appBlocks flashOffset (i + 1) rest = .ok ((rest.map payload).filterMap (uf2Part flashOffset)) :=
      ih fun b hb => h b (List.mem_cons_of_mem _ hb)
    rw [appBlocks, appBlock_of_isBlock (h block List.mem_cons_self)]
    dsimp only
    rw [hrest, List.map_cons, List.filterMap_cons]
    cases uf2Part flashOffset (payload block) <;> rfl

theorem appBlocks_of_not_isBlock (flashOffset : ℕ) (h : ¬∀ block ∈ blocks, IsBlock block) (i : ℕ) :
    ∃ e, appBlocks flashOffset i blocks = .error e ∧ e.isValueError = true := by
  induction blocks generalizing i with
  | nil => exact absurd (fun b hb => absurd hb List.not_mem_nil) h
  | cons block rest ih =>
    by_cases hblock : IsBlock block
    · have hrest : ¬∀ block ∈ rest, IsBlock block := fun hrest => h (List.forall_mem_cons.mpr ⟨hblock, hrest⟩)
      obtain ⟨e, he, hvalue⟩ := ih hrest (i + 1)
      rw [appBlocks, appBlock_of_isBlock hblock]
      dsimp only
      rw [he]
      exact ⟨e, rfl, hvalue⟩
    · obtain ⟨e, he, hvalue⟩ := appBlock_of_not_isBlock flashOffset i hblock
      rw [appBlocks, he]
      exact ⟨e, rfl, hvalue⟩

theorem reads_uf2 (raw : List (BitVec 8)) (flashOffset : ℕ) :
    Reads (uf2Part flashOffset) False (uf2Contents raw) (parseUf2 raw flashOffset) := by
  unfold uf2Contents
  by_cases hlength : raw.length % uf2BlockSize = 0
  · have hparse : parseUf2 raw flashOffset = match appBlocks flashOffset 0 (toBlocks raw) with
        | .error e => .error e
        | .ok blocks => imageOf .noBlocks blocks := if_neg fun hne => hne hlength
    rw [hparse]
    by_cases hblocks : ∀ block ∈ toBlocks raw, IsBlock block
    · rw [if_pos ⟨hlength, hblocks⟩, appBlocks_of_isBlock hblocks]
      refine ⟨nofun, fun segs hsegs => ⟨.noBlocks, rfl, ?_⟩⟩
      rw [← Option.some.inj hsegs]
    · obtain ⟨e, he, hvalue⟩ := appBlocks_of_not_isBlock flashOffset hblocks 0
      rw [if_neg (fun hboth => hblocks hboth.2), he]
      exact ⟨fun _ => ⟨e, rfl, .inl hvalue⟩, nofun⟩
  · have hparse : parseUf2 raw flashOffset = .error (.notMultiple raw.length) := if_pos hlength
    rw [if_neg (fun hboth => hlength hboth.1), hparse]
    exact ⟨fun _ => ⟨_, rfl, .inl rfl⟩, nofun⟩

end Uf2

section Hex

variable {flashOffset lineNo baseAddr : ℕ} {text line : List Char} {raw : List (BitVec 8)}

/-- The checksum makes the sum of all bytes a multiple of 256. -/
theorem checksum_iff {n : ℕ} {checksum : BitVec 8} (h : raw[n]? = some checksum) :
    checksum.toNat = (0x100 - sumOf raw n % 0x100) % 0x100 ↔ sumOf raw (n + 1) % 0x100 = 0 := by
  have hsum : sumOf raw (n + 1) = sumOf raw n + checksum.toNat := by
    rw [sumOf, List.take_add_one, h, List.map_append, List.sum_append]
    rfl
  have hlt := checksum.isLt
  rw [hsum]
  omega

theorem upper_of_length {data : List (BitVec 8)} (h : 2 ≤ data.length) :
    upper data = some (byteAt data 0 * 0x100 + byteAt data 1) := by
  match data, h with
  | _ :: _ :: _, _ => rfl

theorem byteAt_data {i : ℕ} (h : i < byteAt raw 0) :
    byteAt ((raw.drop 4).take (byteAt raw 0)) i = byteAt raw (4 + i) := by
  rw [byteAt, List.getD_eq_getElem?_getD, List.getElem?_take_of_lt h, List.getElem?_drop,
    ← List.getD_eq_getElem?_getD, byteAt]

/-- The first two bytes of the data are the next two of the record. -/
theorem upper_data (hlength : 5 + byteAt raw 0 ≤ raw.length) (htwo : 2 ≤ byteAt raw 0) :
    upper ((raw.drop 4).take (byteAt raw 0)) = some (byteAt raw 4 * 0x100 + byteAt raw 5) := by
  have hdata : 2 ≤ ((raw.drop 4).take (byteAt raw 0)).length := by
    rw [List.length_take, List.length_drop]
    omega
  rw [upper_of_length hdata, byteAt_data (by omega), byteAt_data (by omega)]

/-- A sound record is read. -/
theorem readRecord_of_isRecord (lineNo : ℕ) (htext : fromHex text = some raw) (h : IsRecord raw) :
    readRecord lineNo text =
      .ok ⟨byteAt raw 3, byteAt raw 1 * 0x100 + byteAt raw 2, (raw.drop 4).take (byteAt raw 0)⟩ := by
  obtain ⟨hlength, hsum, -⟩ := h
  have hfive : ¬raw.length < 5 := by omega
  have hindex : 4 + byteAt raw 0 < raw.length := by omega
  have hget := List.getElem?_eq_getElem hindex
  have hcheck := (checksum_iff hget).mpr (by rwa [show 4 + byteAt raw 0 + 1 = 5 + byteAt raw 0 by omega])
  unfold readRecord
  rw [htext]
  dsimp only
  rw [if_neg hfive, hget]
  dsimp only
  rw [if_neg (not_not.mpr hcheck)]

/-- Of another one an extended address of less than two bytes is read. -/
theorem readRecord_of_not_isRecord (lineNo : ℕ) (htext : fromHex text = some raw) (h : ¬IsRecord raw) :
    (∃ e, readRecord lineNo text = .error e ∧ (e.isValueError = true ∨ IsTruncated raw)) ∨
      IsTruncated raw ∧ (byteAt raw 3 = 0x02 ∨ byteAt raw 3 = 0x04) ∧
        ∃ address data, readRecord lineNo text = .ok ⟨byteAt raw 3, address, data⟩ ∧ upper data = none := by
  unfold readRecord
  rw [htext]
  dsimp only
  by_cases hfive : raw.length < 5
  · rw [if_pos hfive]
    exact .inl ⟨_, rfl, .inl rfl⟩
  · rw [if_neg hfive]
    cases hget : raw[4 + byteAt raw 0]? with
    | none =>
      have hshort := List.getElem?_eq_none_iff.mp hget
      exact .inl ⟨_, rfl, .inr ⟨by omega, .inl (by omega)⟩⟩
    | some checksum =>
      have hlength := (List.getElem?_eq_some_iff.mp hget).1
      dsimp only
      by_cases hcheck : checksum.toNat ≠ (0x100 - sumOf raw (4 + byteAt raw 0) % 0x100) % 0x100
      · rw [if_pos hcheck]
        exact .inl ⟨_, rfl, .inl rfl⟩
      · rw [if_neg hcheck]
        have hsum := (checksum_iff hget).mp (not_not.mp hcheck)
        rw [show 4 + byteAt raw 0 + 1 = 5 + byteAt raw 0 by omega] at hsum
        have hextended : ¬(byteAt raw 3 = 0x02 ∨ byteAt raw 3 = 0x04 → 2 ≤ byteAt raw 0) := fun hext =>
          h ⟨by omega, hsum, hext⟩
        rw [Classical.not_imp] at hextended
        obtain ⟨htype, hcount⟩ := hextended
        refine .inr ⟨⟨by omega, .inr ⟨htype, by omega⟩⟩, htype, _, _, rfl, ?_⟩
        have hdata : ((raw.drop 4).take (byteAt raw 0)).length < 2 := by
          rw [List.length_take]
          omega
        generalize (raw.drop 4).take (byteAt raw 0) = data at hdata
        match data, hdata with
        | [], _ => rfl
        | [_], _ => rfl

theorem readRecord_notHex (htext : fromHex text = none) : readRecord lineNo text = .error .notHex := by
  unfold readRecord
  rw [htext]

/-- One line of the loop, by what the line says. -/
theorem readRecords_cons (flashOffset lineNo baseAddr : ℕ) (line : List Char) (rest : List (List Char)) :
    match meaning line with
    | .nothing =>
      readRecords flashOffset lineNo baseAddr (line :: rest) = readRecords flashOffset (lineNo + 1) baseAddr rest
    | .data address bytes =>
      readRecords flashOffset lineNo baseAddr (line :: rest) =
        if baseAddr + address ≥ flashOffset then
          (readRecords flashOffset (lineNo + 1) baseAddr rest).map (⟨baseAddr + address, bytes⟩ :: ·)
        else readRecords flashOffset (lineNo + 1) baseAddr rest
    | .endOfFile => readRecords flashOffset lineNo baseAddr (line :: rest) = .ok []
    | .extended base =>
      readRecords flashOffset lineNo baseAddr (line :: rest) = readRecords flashOffset (lineNo + 1) base rest
    | .malformed =>
      ∃ e, readRecords flashOffset lineNo baseAddr (line :: rest) = .error e ∧
        (e.isValueError = true ∨ Truncated line) := by
  unfold meaning
  cases htext : recordText line with
  | none =>
    rw [readRecords, htext]
  | some text =>
    dsimp only
    cases hraw : fromHex text with
    | none =>
      have hread : readRecord lineNo text = .error .notHex := readRecord_notHex hraw
      rw [readRecords, htext]
      dsimp only
      rw [hread]
      exact ⟨_, rfl, .inl rfl⟩
    | some raw =>
      dsimp only
      by_cases hrecord : IsRecord raw
      · have hread := readRecord_of_isRecord lineNo hraw hrecord
        rw [readRecords, htext]
        dsimp only
        rw [hread, recordMeaning, if_pos hrecord]
        dsimp only
        have hupper : byteAt raw 3 = 0x02 ∨ byteAt raw 3 = 0x04 →
            upper ((raw.drop 4).take (byteAt raw 0)) = some (byteAt raw 4 * 0x100 + byteAt raw 5) := fun htype =>
          upper_data hrecord.1 (hrecord.2.2 htype)
        match htype : byteAt raw 3 with
        | 0 => rfl
        | 1 => rfl
        | 2 =>
          rw [hupper (.inl htype)]
          rfl
        | 3 => rfl
        | 4 =>
          rw [hupper (.inr htype)]
          rfl
        | n + 5 => rfl
      · rw [recordMeaning, if_neg hrecord]
        rw [readRecords, htext]
        dsimp only
        rcases readRecord_of_not_isRecord lineNo hraw hrecord with
          ⟨e, he, hkind⟩ | ⟨hcut, htype, address, data, hread, hupper⟩
        · rw [he]
          exact ⟨e, rfl, hkind.imp_right fun hcut => ⟨text, raw, htext, hraw, hcut⟩⟩
        · rw [hread]
          dsimp only
          refine ⟨.indexError, ?_, .inr ⟨text, raw, htext, hraw, hcut⟩⟩
          rcases htype with htype | htype
          · rw [htype]
            change (match upper data with
              | none => Except.error Failure.indexError
              | some upper => readRecords flashOffset (lineNo + 1) (upper <<< 4) rest) = _
            rw [hupper]
          · rw [htype]
            change (match upper data with
              | none => Except.error Failure.indexError
              | some upper => readRecords flashOffset (lineNo + 1) (upper <<< 16) rest) = _
            rw [hupper]

theorem readRecords_of_contents {lines : List (List Char)} {segs : List (Segment (BitVec 8))}
    (h : hexContents baseAddr lines = some segs) :
    readRecords flashOffset lineNo baseAddr lines = .ok (segs.filterMap (hexPart flashOffset)) := by
  induction lines generalizing lineNo baseAddr segs with
  | nil =>
    obtain rfl := Option.some.inj h
    rfl
  | cons line rest ih =>
    have hstep := readRecords_cons flashOffset lineNo baseAddr line rest
    rw [hexContents] at h
    cases hmeaning : meaning line with
    | nothing =>
      rw [hmeaning] at h hstep
      rw [hstep]
      exact ih h
    | data address bytes =>
      rw [hmeaning] at h hstep
      obtain ⟨others, hothers, rfl⟩ := Option.map_eq_some_iff.mp h
      have hrest : readRecords flashOffset (lineNo + 1) baseAddr rest = .ok (others.filterMap (hexPart flashOffset)) :=
        ih hothers
      rw [hstep, hrest, List.filterMap_cons, hexPart]
      dsimp only
      split <;> rfl
    | endOfFile =>
      rw [hmeaning] at h hstep
      obtain rfl := Option.some.inj h
      exact hstep
    | extended base =>
      rw [hmeaning] at h hstep
      rw [hstep]
      exact ih h
    | malformed =>
      rw [hmeaning] at h
      cases h

theorem readRecords_of_malformed {lines : List (List Char)} (lineNo : ℕ) (h : hexContents baseAddr lines = none) :
    ∃ e, readRecords flashOffset lineNo baseAddr lines = .error e ∧
      (e.isValueError = true ∨ ∃ line ∈ lines, Truncated line) := by
  induction lines generalizing lineNo baseAddr with
  | nil => cases h
  | cons line rest ih =>
    have hstep := readRecords_cons flashOffset lineNo baseAddr line rest
    rw [hexContents] at h
    -- what the rest of the lines raises is raised
    have hlater {e : Failure} (hkind : e.isValueError = true ∨ ∃ line ∈ rest, Truncated line) :
        e.isValueError = true ∨ ∃ line' ∈ line :: rest, Truncated line' :=
      hkind.imp_right fun ⟨line', hmem, hcut⟩ => ⟨line', List.mem_cons_of_mem _ hmem, hcut⟩
    cases hmeaning : meaning line with
    | nothing =>
      rw [hmeaning] at h hstep
      obtain ⟨e, he, hkind⟩ := ih (lineNo + 1) h
      exact ⟨e, hstep.trans he, hlater hkind⟩
    | data address bytes =>
      rw [hmeaning] at h hstep
      obtain ⟨e, he, hkind⟩ := ih (lineNo + 1) (Option.map_eq_none_iff.mp h)
      rw [he] at hstep
      refine ⟨e, hstep.trans ?_, hlater hkind⟩
      split <;> rfl
    | endOfFile =>
      rw [hmeaning] at h
      cases h
    | extended base =>
      rw [hmeaning] at h hstep
      obtain ⟨e, he, hkind⟩ := ih (lineNo + 1) h
      exact ⟨e, hstep.trans he, hlater hkind⟩
    | malformed =>
      rw [hmeaning] at hstep
      obtain ⟨e, he, hkind⟩ := hstep
      exact ⟨e, he, hkind.imp_right fun hcut => ⟨line, List.mem_cons_self, hcut⟩⟩

theorem reads_hex (lines : List (List Char)) (flashOffset : ℕ) :
    Reads (hexPart flashOffset) (∃ line ∈ lines, Truncated line) (hexContents 0 lines)
      (parseHex lines flashOffset) where
  malformed h := by
    obtain ⟨e, he, hkind⟩ := readRecords_of_malformed 1 h
    refine ⟨e, ?_, hkind⟩
    rw [parseHex, he]
  image segs h := by
    have hrecords : readRecords flashOffset 1 0 lines = .ok (segs.filterMap (hexPart flashOffset)) :=
      readRecords_of_contents h
    refine ⟨.noData, rfl, ?_⟩
    rw [parseHex, hrecords]

end Hex

/-! ## The order of blocks and records -/

section Order

variable {part : Segment (BitVec 8) → Option (Segment (BitVec 8))} {truncated truncated' : Prop}
  {contents contents' : Option (List (Segment (BitVec 8)))} {result result' : Except Failure FirmwareImage}

/-- Everything the one says the other says, in some order. -/
def SameContents (contents contents' : Option (List (Segment (BitVec 8)))) : Prop :=
  ∀ segs, contents = some segs → ∃ segs', contents' = some segs' ∧ segs.Perm segs'

theorem imageOf_perm {e e' : Failure} {segs segs' : List (Segment (BitVec 8))} (hapart : Apart segs)
    (hperm : segs.Perm segs') : (imageOf e segs).toOption = (imageOf e' segs').toOption := by
  unfold imageOf
  rw [assemble_perm hapart hperm]
  cases assemble 0xFF segs' <;> rfl

/-- Files that say the same have the same image. -/
theorem Reads.toOption_eq {flashOffset : ℕ} (hpart : Trims flashOffset part)
    (h : Reads part truncated contents result) (h' : Reads part truncated' contents' result')
    (hsame : SameContents contents contents') (hsame' : SameContents contents' contents)
    (hapart : ∀ segs, contents = some segs → Apart segs) :
    result.toOption = result'.toOption := by
  cases hcontents : contents with
  | some segs =>
    obtain ⟨segs', hcontents', hperm⟩ := hsame segs hcontents
    obtain ⟨e, -, hresult⟩ := h.image segs hcontents
    obtain ⟨e', -, hresult'⟩ := h'.image segs' hcontents'
    rw [hresult, hresult']
    exact imageOf_perm (hpart.apart (hapart segs hcontents)) (hperm.filterMap _)
  | none =>
    have hcontents' : contents' = none := by
      rw [Option.eq_none_iff_forall_ne_some]
      intro segs' hcontents'
      obtain ⟨segs, hsegs, -⟩ := hsame' segs' hcontents'
      rw [hcontents] at hsegs
      cases hsegs
    obtain ⟨e, hresult, -⟩ := h.malformed hcontents
    obtain ⟨e', hresult', -⟩ := h'.malformed hcontents'
    rw [hresult, hresult']
    rfl

theorem sameContents_uf2 {raw raw' : List (BitVec 8)} (hlength : raw.length = raw'.length)
    (hperm : (toBlocks raw).Perm (toBlocks raw')) : SameContents (uf2Contents raw) (uf2Contents raw') := by
  intro segs h
  unfold uf2Contents at h ⊢
  split at h
  case isFalse => cases h
  case isTrue hblocks =>
    obtain rfl := Option.some.inj h
    rw [if_pos ⟨hlength ▸ hblocks.1, fun block hmem => hblocks.2 block (hperm.mem_iff.mpr hmem)⟩]
    exact ⟨_, rfl, hperm.map _⟩

/-- What a line with data says. -/
def dataOf (base : ℕ) (line : List Char) : Option (Segment (BitVec 8)) :=
  match meaning line with
  | .data address bytes => some ⟨base + address, bytes⟩
  | _ => none

/-- A line is a record of data. -/
def IsData (line : List Char) : Prop := ∃ address bytes, meaning line = .data address bytes

theorem hexContents_run {base : ℕ} {run : List (List Char)} (h : ∀ line ∈ run, IsData line)
    (post : List (List Char)) :
    hexContents base (run ++ post) = (hexContents base post).map (run.filterMap (dataOf base) ++ ·) := by
  induction run with
  | nil =>
    rw [List.nil_append]
    cases hexContents base post <;> rfl
  | cons line run ih =>
    obtain ⟨address, bytes, hmeaning⟩ := h line List.mem_cons_self
    have hdata : dataOf base line = some ⟨base + address, bytes⟩ := by rw [dataOf, hmeaning]
    rw [List.cons_append, hexContents, hmeaning]
    dsimp only
    rw [ih fun line' hmem => h line' (List.mem_cons_of_mem _ hmem), List.filterMap_cons, hdata, Option.map_map]
    rfl

theorem sameContents_run {base : ℕ} {run run' : List (List Char)} (h : ∀ line ∈ run, IsData line)
    (hperm : run.Perm run') (post : List (List Char)) :
    SameContents (hexContents base (run ++ post)) (hexContents base (run' ++ post)) := by
  intro segs hsegs
  rw [hexContents_run h] at hsegs
  obtain ⟨others, hothers, rfl⟩ := Option.map_eq_some_iff.mp hsegs
  refine ⟨run'.filterMap (dataOf base) ++ others, ?_, (hperm.filterMap _).append_right _⟩
  rw [hexContents_run fun line hmem => h line (hperm.mem_iff.mpr hmem), hothers]
  rfl

/-- Lines before do not matter. -/
theorem sameContents_append {lines lines' : List (List Char)}
    (h : ∀ base, SameContents (hexContents base lines) (hexContents base lines'))
    (pre : List (List Char)) (base : ℕ) :
    SameContents (hexContents base (pre ++ lines)) (hexContents base (pre ++ lines')) := by
  induction pre generalizing base with
  | nil => exact h base
  | cons line pre ih =>
    intro segs hsegs
    rw [List.cons_append, hexContents] at hsegs ⊢
    cases hmeaning : meaning line with
    | nothing =>
      rw [hmeaning] at hsegs
      exact ih base segs hsegs
    | data address bytes =>
      rw [hmeaning] at hsegs
      obtain ⟨others, hothers, rfl⟩ := Option.map_eq_some_iff.mp hsegs
      obtain ⟨others', hothers', hperm⟩ := ih base others hothers
      exact ⟨_, Option.map_eq_some_iff.mpr ⟨others', hothers', rfl⟩, hperm.cons _⟩
    | endOfFile =>
      rw [hmeaning] at hsegs
      exact ⟨segs, hsegs, .refl _⟩
    | extended base' =>
      rw [hmeaning] at hsegs
      exact ih base' segs hsegs
    | malformed =>
      rw [hmeaning] at hsegs
      cases hsegs

end Order

/-! ## The image -/

/-- What a parser does with a file: it returns an image if and only if the file is well formed and there is something to
keep, the image of what is kept, which is the image of all the bytes in the application where nothing is lost. -/
structure Reconstructs (part : Segment (BitVec 8) → Option (Segment (BitVec 8))) (flashOffset : ℕ) (truncated : Prop)
    (contents : Option (List (Segment (BitVec 8)))) (result : Except Failure FirmwareImage) : Prop where
  raises : ∀ e, result = .error e → e.isValueError = true ∨ truncated
  returns : (∃ image, result = .ok image) ↔ ∃ segs, contents = some segs ∧ segs.filterMap part ≠ []
  image : ∀ image segs, result = .ok image → contents = some segs → Apart segs →
    IsImage 0xFF (segs.filterMap part) image.baseAddress image.data
  whole : ∀ image segs, result = .ok image → contents = some segs → Apart segs →
    (IsImage 0xFF (segs.filterMap (Segment.above flashOffset)) image.baseAddress image.data ↔
      Lossless 0xFF (segs.filterMap part) (segs.filterMap (Segment.above flashOffset)))

section Reconstructs

variable {part : Segment (BitVec 8) → Option (Segment (BitVec 8))} {flashOffset : ℕ} {truncated : Prop}
  {contents : Option (List (Segment (BitVec 8)))} {result : Except Failure FirmwareImage}

theorem imageOf_ok {e : Failure} {segs : List (Segment (BitVec 8))} {image : FirmwareImage} :
    imageOf e segs = .ok image ↔
      assemble 0xFF segs = some (image.baseAddress, image.data) ∧ image.crc32 = crc32Ieee image.data := by
  unfold imageOf
  cases assemble 0xFF segs with
  | none => simp
  | some result =>
    obtain ⟨base, data⟩ := result
    obtain ⟨data', base', crc⟩ := image
    simp only [Except.ok.injEq, FirmwareImage.mk.injEq, Option.some.injEq, Prod.mk.injEq]
    constructor
    · rintro ⟨rfl, rfl, rfl⟩
      exact ⟨⟨rfl, rfl⟩, rfl⟩
    · rintro ⟨⟨rfl, rfl⟩, rfl⟩
      exact ⟨rfl, rfl, rfl⟩

theorem Reads.isImage (hpart : Trims flashOffset part) (h : Reads part truncated contents result)
    {image : FirmwareImage} {segs : List (Segment (BitVec 8))} (hresult : result = .ok image)
    (hcontents : contents = some segs) (hapart : Apart segs) :
    IsImage 0xFF (segs.filterMap part) image.baseAddress image.data := by
  obtain ⟨e, -, himage⟩ := h.image segs hcontents
  rw [hresult] at himage
  exact assemble_isImage (hpart.apart hapart) (imageOf_ok.mp himage.symm).1

theorem Reads.reconstructs (hpart : Trims flashOffset part) (h : Reads part truncated contents result) :
    Reconstructs part flashOffset truncated contents result where
  raises e hresult := by
    cases hcontents : contents with
    | none =>
      obtain ⟨e', he', hkind⟩ := h.malformed hcontents
      rw [hresult] at he'
      rwa [Except.error.inj he']
    | some segs =>
      obtain ⟨e', hvalue, himage⟩ := h.image segs hcontents
      rw [hresult, imageOf] at himage
      split at himage
      · exact .inl (by rwa [Except.error.inj himage])
      · cases himage
  returns := by
    constructor
    · rintro ⟨image, hresult⟩
      cases hcontents : contents with
      | none =>
        obtain ⟨e, he, -⟩ := h.malformed hcontents
        rw [hresult] at he
        cases he
      | some segs =>
        obtain ⟨e, -, himage⟩ := h.image segs hcontents
        rw [hresult] at himage
        refine ⟨segs, rfl, fun hempty => ?_⟩
        have hassemble := (imageOf_ok.mp himage.symm).1
        rw [assemble_eq_none.mpr hempty] at hassemble
        cases hassemble
    · rintro ⟨segs, hcontents, hne⟩
      obtain ⟨e, -, himage⟩ := h.image segs hcontents
      have hassemble : assemble 0xFF (segs.filterMap part) ≠ none := fun hnone => hne (assemble_eq_none.mp hnone)
      obtain ⟨⟨base, data⟩, hdata⟩ := Option.ne_none_iff_exists'.mp hassemble
      exact ⟨⟨data, base, crc32Ieee data⟩, himage.trans (imageOf_ok.mpr ⟨hdata, rfl⟩)⟩
  image _ _ hresult hcontents hapart := h.isImage hpart hresult hcontents hapart
  whole _ _ hresult hcontents hapart :=
    isImage_iff_lossless hpart hapart (h.isImage hpart hresult hcontents hapart)

end Reconstructs

end SlimeReceiver.FirmwareFile
