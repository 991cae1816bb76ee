import SlimeReceiver.SelfUpdate.Ownership

/-! # What is in the pages and in the flash

The bytes copied into page buffers are one stream. Page `k` of a session holds the bytes of the stream from `4096 * k`
on, in its buffer, while the writer has it, and in the flash.

* **`Pages`**, **`Buffered`** — the pages submitted, and the one being filled.
* **`Staged`** — the pages in the flash.
* **`Counted`** — the packets accepted.
* **`crc32Update_append`** — the checksum of an image read in parts. -/

namespace SlimeReceiver.SelfUpdate

open Function (update update_self update_of_ne)

/-! ## Pages in buffers -/

/-- The pages the writer has hold their parts of the stream. -/
def Pages (outstanding : List Bool) (released : ℕ) (reqs : Bool → PageWriteReq) (stream : List (BitVec 8)) : Prop :=
  ∀ j slot, outstanding[j]? = some slot →
    (reqs slot).len = min flashPageSize (stream.length - flashPageSize * (released + j)) ∧
      ∀ i < (reqs slot).len, (reqs slot).data i = stream.getD (flashPageSize * (released + j) + i) 0

/-- The page being filled holds the end of the stream; `n` pages were filled before. -/
structure Buffered (n offset : ℕ) (data : ℕ → BitVec 8) (stream : List (BitVec 8)) : Prop where
  length : stream.length = flashPageSize * n + offset
  data : ∀ j < offset, data j = stream.getD (flashPageSize * n + j) 0

section Buffers

variable {outstanding : List Bool} {released n offset : ℕ} {reqs reqs' : Bool → PageWriteReq}
  {data : ℕ → BitVec 8} {stream bytes : List (BitVec 8)}

/-- The stream grows beyond the pages submitted. -/
theorem Pages.grow (hpages : Pages outstanding released reqs stream)
    (hreqs : ∀ slot ∈ outstanding, reqs' slot = reqs slot)
    (hfull : flashPageSize * (released + outstanding.length) ≤ stream.length) :
    Pages outstanding released reqs' (stream ++ bytes) := by
  intro j slot hj
  have hlt := (List.getElem?_eq_some_iff.mp hj).1
  have hpage : flashPageSize * (released + j) + flashPageSize ≤ stream.length :=
    calc flashPageSize * (released + j) + flashPageSize = flashPageSize * (released + (j + 1)) := by
          rw [← Nat.add_assoc, Nat.mul_succ]
      _ ≤ flashPageSize * (released + outstanding.length) :=
          Nat.mul_le_mul_left _ (Nat.add_le_add_left hlt _)
      _ ≤ stream.length := hfull
  obtain ⟨hlen, hdata⟩ := hpages j slot hj
  rw [hreqs slot (List.mem_of_getElem? hj)]
  have hsize : (reqs slot).len = flashPageSize := by
    rw [hlen]
    omega
  refine ⟨?_, fun i hi => ?_⟩
  · rw [hsize, List.length_append]
    omega
  · rw [hdata i hi, List.getD_append _ _ _ _ (by omega)]

/-- A page the writer does not have is written. -/
theorem Pages.congr (hpages : Pages outstanding released reqs stream)
    (hreqs : ∀ slot ∈ outstanding, reqs' slot = reqs slot) : Pages outstanding released reqs' stream := by
  intro j slot hj
  rw [hreqs slot (List.mem_of_getElem? hj)]
  exact hpages j slot hj

/-- The page being filled is submitted. -/
theorem Pages.submit (hpages : Pages outstanding released reqs stream) {slot : Bool}
    (hbuffered : Buffered (released + outstanding.length) offset (reqs slot).data stream)
    (hlen : (reqs slot).len = offset) (hle : offset ≤ flashPageSize) :
    Pages (outstanding ++ [slot]) released reqs stream := by
  intro j slot' hj
  by_cases hlast : j < outstanding.length
  · rw [List.getElem?_append_left hlast] at hj
    exact hpages j slot' hj
  · have hlt := (List.getElem?_eq_some_iff.mp hj).1
    rw [List.length_append, List.length_singleton] at hlt
    obtain rfl : j = outstanding.length := by omega
    rw [List.getElem?_concat_length] at hj
    obtain rfl := Option.some.inj hj
    rw [hlen, hbuffered.length]
    exact ⟨by omega, hbuffered.data⟩

/-- The first page is given back. -/
theorem Pages.release {slot : Bool} (hpages : Pages (slot :: outstanding) released reqs stream) :
    Pages outstanding (released + 1) reqs stream := by
  intro j slot' hj
  rw [Nat.add_assoc, Nat.add_comm 1]
  exact hpages (j + 1) slot' hj

/-- Bytes are copied to the end of the page being filled. -/
theorem Buffered.copy (hbuffered : Buffered n offset data stream) :
    Buffered n (offset + bytes.length) (writeBytes data offset bytes) (stream ++ bytes) where
  length := by
    rw [List.length_append, hbuffered.length, Nat.add_assoc]
  data j hj := by
    have hlength := hbuffered.length
    by_cases hold : j < offset
    · rw [writeBytes_outside (by omega), List.getD_append _ _ _ _ (by omega)]
      exact hbuffered.data j hold
    · rw [writeBytes, if_pos ⟨Nat.le_of_not_lt hold, hj⟩, List.getD_append_right _ _ _ _ (by omega)]
      congr 1
      omega

/-- Only what is in the page matters. -/
theorem Buffered.congr {data' : ℕ → BitVec 8} (hbuffered : Buffered n offset data stream)
    (hdata : ∀ j < offset, data' j = data j) : Buffered n offset data' stream :=
  ⟨hbuffered.length, fun j hj => (hdata j hj).trans (hbuffered.data j hj)⟩

/-- A full page leaves an empty one. -/
theorem Buffered.next {data' : ℕ → BitVec 8} (hbuffered : Buffered n flashPageSize data stream) :
    Buffered (n + 1) 0 data' stream :=
  ⟨by rw [hbuffered.length, Nat.mul_succ, Nat.add_zero], nofun⟩

end Buffers

/-! ## Pages in the flash -/

/-- The page the writer has is in the flash. -/
def Writer.stored : Writer → ℕ
  | .give _ => 1
  | _ => 0

/-- The writer is about to set its error flag. -/
def Writer.broken : Writer → Bool
  | .setError _ => true
  | _ => false

/-- As long as no page has failed, the flash holds the pages given back, and is erased where the next one goes. -/
structure Staged (cfg : FlashConfig) (h : UpdateHistory) (writer : Writer) (writerError : Bool)
    (flash : ℕ → BitVec 8) (stream : List (BitVec 8)) : Prop where
  failed : h.failed = true → writerError = true ∨ writer.broken = true
  stored : writerError = false → writer.broken = false →
    ∀ x < flashPageSize * (h.released + writer.stored), x < stream.length → flash (h.base + x) = stream.getD x 0
  flat : writerError = false → writer.broken = false → cfg.useMcuboot = true →
    ∀ x, flashPageSize * (h.released + writer.stored) ≤ x → x < cfg.secondarySize → flash (h.base + x) = 0xFF
  erased : writerError = false → ∀ slot, writer = .program slot →
    ∀ i < flashPageSize, flashPageSize * h.released + i < h.size →
      flash (h.base + (flashPageSize * h.released + i)) = 0xFF

section Flash

variable {cfg : FlashConfig} {h : UpdateHistory} {writer w : Writer} {writerError : Bool} {flash : ℕ → BitVec 8}
  {stream bytes : List (BitVec 8)}

/-- The stream grows beyond the pages in the flash. -/
theorem Staged.grow (hstaged : Staged cfg h writer writerError flash stream)
    (hfull : flashPageSize * (h.released + writer.stored) ≤ stream.length) :
    Staged cfg h writer writerError flash (stream ++ bytes) where
  failed := hstaged.failed
  stored herror hbroken x hx _ := by
    have hlt : x < stream.length := Nat.lt_of_lt_of_le hx hfull
    rw [List.getD_append _ _ _ _ hlt]
    exact hstaged.stored herror hbroken x hx hlt
  flat := hstaged.flat
  erased := hstaged.erased

/-- Events that are not about the writer's pages. -/
theorem Staged.congr {h' : UpdateHistory} (hstaged : Staged cfg h writer writerError flash stream)
    (hfailed : h'.failed = h.failed) (hreleased : h'.released = h.released) (hbase : h'.base = h.base)
    (hsize : h'.size = h.size) : Staged cfg h' writer writerError flash stream := by
  obtain ⟨failed, stored, flat, erased⟩ := hstaged
  refine ⟨?_, ?_, ?_, ?_⟩
  · rwa [hfailed]
  · rwa [hreleased, hbase]
  · rwa [hreleased, hbase]
  · rwa [hreleased, hbase, hsize]

/-- The writer moves on between pages. -/
theorem Staged.work (hstaged : Staged cfg h writer writerError flash stream) (hbefore : writer.broken = false)
    (hstored : w.stored = writer.stored) (hprogram : ∀ slot, w ≠ .program slot) :
    Staged cfg h w writerError flash stream where
  failed hfailed := (hstaged.failed hfailed).imp_right fun hstill => absurd (hbefore.symm.trans hstill) (by decide)
  stored herror _ := by
    rw [hstored]
    exact hstaged.stored herror hbefore
  flat herror _ := by
    rw [hstored]
    exact hstaged.flat herror hbefore
  erased _ slot hplace := absurd hplace (hprogram slot)

/-- In a slot that was erased as a whole the writer programs its page at once. -/
theorem Staged.start (hstaged : Staged cfg h writer writerError flash stream) {cmd : WriterCmd}
    (hplace : writer = .got cmd) (hfits : cfg.useMcuboot = true → h.size ≤ cfg.secondarySize) :
    Staged cfg h (RcvOta.startCommand cfg cmd) writerError flash stream := by
  subst hplace
  cases cmd with
  | page slot =>
    simp only [RcvOta.startCommand]
    by_cases hboot : cfg.useMcuboot = true
    · rw [if_pos hboot]
      refine ⟨fun hfailed => .inl ((hstaged.failed hfailed).resolve_right (by rintro ⟨⟩)),
        fun herror _ => hstaged.stored herror rfl,
        fun herror _ => hstaged.flat herror rfl, fun herror slot' _ i hi hsize => ?_⟩
      refine hstaged.flat herror rfl hboot _ ?_ (Nat.lt_of_lt_of_le hsize (hfits hboot))
      exact Nat.le_add_right _ i
    · rw [if_neg hboot]
      exact hstaged.work rfl rfl (by rintro _ ⟨⟩)
  | verify | activate | shutdown => exact hstaged.work rfl rfl (by rintro _ ⟨⟩)

/-- The page is erased. -/
theorem Staged.erase {slot : Bool} (hstaged : Staged cfg h (.erase slot) writerError flash stream) {addr : ℕ}
    (haddr : addr = h.base + flashPageSize * h.released) :
    Staged cfg h (.program slot) writerError (RcvOta.spoiled (fun _ => 0xFF) flash addr) stream where
  failed hfailed := .inl ((hstaged.failed hfailed).resolve_right nofun)
  stored herror _ x hx hlt := by
    have hx' : x < flashPageSize * h.released := hx
    rw [RcvOta.spoiled, if_neg (by omega)]
    exact hstaged.stored herror rfl x hx hlt
  flat herror _ hboot x hx hlt := by
    rw [RcvOta.spoiled]
    split
    · rfl
    · exact hstaged.flat herror rfl hboot x hx hlt
  erased herror slot' _ i hi _ := by
    rw [RcvOta.spoiled, if_pos (by omega)]

/-- The page is programmed. -/
theorem Staged.program {slot : Bool} (hstaged : Staged cfg h (.program slot) writerError flash stream)
    {req : PageWriteReq} (haddr : req.addr = h.base + flashPageSize * h.released)
    (hlen : req.len = min flashPageSize (stream.length - flashPageSize * h.released))
    (hdata : ∀ i < req.len, req.data i = stream.getD (flashPageSize * h.released + i) 0)
    (hsize : stream.length ≤ h.size) :
    Staged cfg h (.give slot) writerError (fun a => if req.addr ≤ a ∧ a < req.addr + req.len then
      flash a &&& req.data (a - req.addr) else flash a) stream where
  failed hfailed := .inl ((hstaged.failed hfailed).resolve_right nofun)
  stored herror _ x hx hlt := by
    have hx' : x < flashPageSize * (h.released + 1) := hx
    rw [Nat.mul_succ] at hx'
    by_cases hold : x < flashPageSize * h.released
    · rw [if_neg (by omega)]
      exact hstaged.stored herror rfl x hold hlt
    · obtain ⟨i, rfl⟩ := Nat.exists_eq_add_of_le (Nat.le_of_not_lt hold)
      have hi : i < req.len := by
        rw [hlen]
        omega
      rw [if_pos (by omega), hstaged.erased herror slot rfl i (by omega) (by omega)]
      have hsub : h.base + (flashPageSize * h.released + i) - req.addr = i := by omega
      rw [hsub, hdata i hi]
      exact BitVec.allOnes_and
  flat herror _ hboot x hx hlt := by
    have hx' : flashPageSize * (h.released + 1) ≤ x := hx
    rw [Nat.mul_succ] at hx'
    rw [if_neg (by omega)]
    refine hstaged.flat herror rfl hboot x ?_ hlt
    exact Nat.le_trans (Nat.le_add_right _ _) hx'
  erased _ slot' hplace := by cases hplace

/-- The page fails, whatever is in it now. -/
theorem Staged.fail {slot : Bool} {flash' : ℕ → BitVec 8} :
    Staged cfg (h.follow .pageFailed) (.setError slot) writerError flash' stream :=
  ⟨fun _ => .inr rfl, fun _ hbroken => (by cases hbroken), fun _ hbroken => (by cases hbroken),
    fun _ _ hplace => (by cases hplace)⟩

/-- The error flag is set. -/
theorem Staged.setError : Staged cfg h w true flash stream :=
  ⟨fun _ => .inl rfl, nofun, nofun, nofun⟩

/-- The page is given back. -/
theorem Staged.release {slot : Bool} (hstaged : Staged cfg h (.give slot) writerError flash stream) :
    Staged cfg (h.follow (.released slot)) .loop writerError flash stream where
  failed hfailed := .inl ((hstaged.failed hfailed).resolve_right nofun)
  stored herror _ := hstaged.stored herror rfl
  flat herror _ := hstaged.flat herror rfl
  erased _ slot' hplace := by cases hplace

/-- All pages given back: the flash holds the stream. -/
theorem Staged.read (hstaged : Staged cfg h writer false flash stream) (hbroken : writer.broken = false)
    (hle : stream.length ≤ flashPageSize * h.released) : readFlash flash h.base stream.length = stream := by
  refine List.ext_getElem (by simp [readFlash]) fun k hk hk' => ?_
  simp only [readFlash, List.getElem_map, List.getElem_range]
  rw [hstaged.stored rfl hbroken k ?_ hk', List.getD_eq_getElem _ _ hk']
  calc k < stream.length := hk'
    _ ≤ flashPageSize * h.released := hle
    _ ≤ flashPageSize * (h.released + writer.stored) := Nat.mul_le_mul_left _ (Nat.le_add_right _ _)

end Flash

/-! ## Checksums -/

theorem crc32Update_append (crc : BitVec 32) (bytes bytes' : List (BitVec 8)) :
    crc32Update (crc32Update crc bytes) bytes' = crc32Update crc (bytes ++ bytes') := by
  unfold crc32Update
  rw [BitVec.not_not, List.foldl_append]

theorem readFlash_append (flash : ℕ → BitVec 8) (addr n m : ℕ) :
    readFlash flash addr n ++ readFlash flash (addr + n) m = readFlash flash addr (n + m) := by
  unfold readFlash
  rw [List.range_add, List.map_append, List.map_map]
  refine congrArg (_ ++ ·) (List.map_congr_left fun k _ => ?_)
  rw [Function.comp_apply, Nat.add_assoc]

/-- A part of the image is read. -/
theorem crc32_part (flash : ℕ → BitVec 8) (base pos n : ℕ) :
    crc32Update (crc32Ieee (readFlash flash base pos)) (readFlash flash (base + pos) n) =
      crc32Ieee (readFlash flash base (pos + n)) := by
  rw [crc32Ieee, crc32Update_append, readFlash_append, crc32Ieee]

/-! ## Packets -/

/-- The bytes of a packet. -/
def packetLen (size packet : ℕ) : ℕ := min dataMaxPayload (size - packet * dataMaxPayload)

/-- The packets accepted are those of the image up to the next one expected. -/
structure Counted (cfg : FlashConfig) (h : UpdateHistory) (imageSize : ℕ) (imageCrc32 : BitVec 32) (bytesWritten : ℕ)
    (nextExpectedSeq : BitVec 16) : Prop where
  size : imageSize = h.size
  crc : imageCrc32 = h.crc
  small : h.size ≤ 1048576
  fits : cfg.useMcuboot = true → h.size ≤ cfg.secondarySize
  written : bytesWritten = h.bytes.length
  seq : nextExpectedSeq.toNat = h.packets
  bytes : h.bytes.length = min (h.packets * dataMaxPayload) h.size

section Packets

variable {cfg : FlashConfig} {h : UpdateHistory} {imageSize bytesWritten : ℕ} {imageCrc32 : BitVec 32}
  {nextExpectedSeq : BitVec 16}

/-- Events that are not about packets. -/
theorem Counted.congr {h' : UpdateHistory} (hcounted : Counted cfg h imageSize imageCrc32 bytesWritten nextExpectedSeq)
    (hsize : h'.size = h.size) (hcrc : h'.crc = h.crc) (hbytes : h'.bytes = h.bytes) (hpackets : h'.packets = h.packets) :
    Counted cfg h' imageSize imageCrc32 bytesWritten nextExpectedSeq := by
  obtain ⟨size, crc, small, fits, written, seq, bytes⟩ := hcounted
  refine ⟨?_, ?_, ?_, ?_, ?_, ?_, ?_⟩
  · rwa [hsize]
  · rwa [hcrc]
  · rwa [hsize]
  · rwa [hsize]
  · rwa [hbytes]
  · rwa [hpackets]
  · rwa [hbytes, hpackets, hsize]

/-- The next packet is accepted. -/
theorem Counted.accept (hcounted : Counted cfg h imageSize imageCrc32 bytesWritten nextExpectedSeq)
    {payload : List (BitVec 8)} (hmore : h.packets * dataMaxPayload < h.size)
    (hlen : payload.length = packetLen h.size h.packets) (seq : BitVec 16) :
    Counted cfg (h.follow (.accepted seq payload)) imageSize imageCrc32 (bytesWritten + payload.length)
      (nextExpectedSeq + 1) where
  size := hcounted.size
  crc := hcounted.crc
  small := hcounted.small
  fits := hcounted.fits
  written := by
    show bytesWritten + payload.length = (h.bytes ++ payload).length
    rw [List.length_append, hcounted.written]
  seq := by
    have hsmall := hcounted.small
    have hpackets : h.packets < 2 ^ 16 - 1 := by
      unfold dataMaxPayload at hmore
      omega
    show (nextExpectedSeq + 1).toNat = h.packets + 1
    rw [BitVec.toNat_add, hcounted.seq]
    exact Nat.mod_eq_of_lt (Nat.add_lt_of_lt_sub hpackets)
  bytes := by
    show (h.bytes ++ payload).length = min ((h.packets + 1) * dataMaxPayload) h.size
    rw [List.length_append, hcounted.bytes, hlen, packetLen, Nat.succ_mul]
    omega

/-- What is accepted, with a packet, is within the image. -/
theorem Counted.length_le (hcounted : Counted cfg h imageSize imageCrc32 bytesWritten nextExpectedSeq)
    (hmore : h.packets * dataMaxPayload < h.size) : h.bytes.length + packetLen h.size h.packets ≤ h.size := by
  rw [hcounted.bytes, packetLen]
  omega

end Packets

end SlimeReceiver.SelfUpdate
