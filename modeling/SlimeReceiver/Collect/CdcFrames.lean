import SlimeReceiver.Library.Bytes
import SlimeReceiver.Library.Framing

/-! # The frames of the capture stream

The frame that `data_collect_write` of `data_collect.c` puts into its ring, and `read_frames` of
`data_collect_cdc.py`, which finds the frames in what the serial port delivers.

* **`CdcPacket.frame`** — the bytes of a frame.
* **`hostScan`**, **`scanFrames`**, **`readFrames`** — one pass of the script's loop, the loop, and the generator.
* **`scans_frames`** — the loop takes whole frames off the buffer and waits for the rest of the next. -/

namespace SlimeReceiver

namespace Collect

/-! ## Frames -/

/-- A packet of the capture stream. -/
structure CdcPacket where
  payload : List (BitVec 8)
  rssi : BitVec 8
  rxTicks : BitVec 32
  deriving DecidableEq, Repr

namespace CdcPacket

/-- `frame_len`, a byte. -/
def frameLen (p : CdcPacket) : BitVec 8 := BitVec.ofNat 8 (p.payload.length + 5)

/-- `crc`, taken over one part after the other. -/
def crc (p : CdcPacket) : BitVec 8 :=
  let crc := crc8Ccitt 0x07 [p.frameLen]
  let crc := crc8Ccitt crc p.payload
  let crc := crc8Ccitt crc [p.rssi]
  crc8Ccitt crc (be32Bytes p.rxTicks)

/-- The bytes put into the ring. -/
def frame (p : CdcPacket) : List (BitVec 8) :=
  [0xAA, 0x55] ++ [p.frameLen] ++ p.payload ++ [p.rssi] ++ be32Bytes p.rxTicks ++ [p.crc]

/-- The payload has 2 to 250 bytes. -/
def Sized (p : CdcPacket) : Prop := 2 ≤ p.payload.length ∧ p.payload.length ≤ 250

/-- What the checksum is about, after the length. -/
def body (p : CdcPacket) : List (BitVec 8) := p.payload ++ p.rssi :: be32Bytes p.rxTicks

theorem body_length (p : CdcPacket) : p.body.length = p.payload.length + 5 := by
  rw [body, List.length_append]
  rfl

theorem frame_eq (p : CdcPacket) : p.frame = 0xAA :: 0x55 :: p.frameLen :: (p.body ++ [p.crc]) := by
  simp [frame, body]

theorem frame_length (p : CdcPacket) : p.frame.length = p.payload.length + 9 := by
  rw [frame_eq, List.length_cons, List.length_cons, List.length_cons, List.length_append, body_length]
  rfl

theorem frame_ne_nil (p : CdcPacket) : p.frame ≠ [] := by
  rw [frame_eq]
  exact List.cons_ne_nil _ _

theorem frameLen_toNat {p : CdcPacket} (h : p.Sized) : p.frameLen.toNat = p.payload.length + 5 := by
  obtain ⟨-, hle⟩ := h
  rw [frameLen, BitVec.toNat_ofNat, Nat.mod_eq_of_lt (by omega)]

/-- The parts together have the checksum of the whole. -/
theorem crc_eq (p : CdcPacket) : p.crc = crc8Ccitt 0x07 (p.frameLen :: p.body) := by
  simp [crc, body, crc8Ccitt]

end CdcPacket

/-! ## The script -/

/-- A round of `crc8_ccitt` of the script, on an integer. -/
def hostCrcBit (crc : ℕ) : ℕ :=
  if crc &&& 0x80 ≠ 0 then (crc <<< 1 ^^^ 0x07) &&& 0xFF else (crc <<< 1) &&& 0xFF

/-- `crc8_ccitt` of the script. -/
def hostCrc8Ccitt (data : List (BitVec 8)) (init : ℕ) : ℕ :=
  data.foldl (fun crc b => (List.range 8).foldl (fun crc _ => hostCrcBit crc) (crc ^^^ b.toNat)) init

/-- `buf.find(b"\xAA\x55")`. -/
def findSync : List (BitVec 8) → Option ℕ
  | a :: b :: rest => if a = 0xAA ∧ b = 0x55 then some 0 else (findSync (b :: rest)).map (· + 1)
  | _ => none

/-- How a pass of the loop ends, with the bytes that stay in the buffer. -/
inductive HostScan
  /-- `break`. -/
  | wait (buf : List (BitVec 8))
  /-- `continue`. -/
  | skip (buf : List (BitVec 8))
  /-- `yield`. -/
  | found (packet : CdcPacket) (buf : List (BitVec 8))

/-- A pass of the loop of `read_frames`. -/
def hostScan (buf : List (BitVec 8)) : HostScan :=
  if buf.length < 4 then .wait buf
  else match findSync buf with
    | none => .wait (buf.drop (buf.length - 1))
    | some idx =>
      let buf := buf.drop idx
      if buf.length < 3 then .wait buf
      else
        let frameLen := (buf.getD 2 0).toNat
        let totalFrame := 3 + frameLen + 1
        if buf.length < totalFrame then .wait buf
        else
          let frameData := (buf.drop 3).take frameLen
          let frameCrc := buf.getD (3 + frameLen) 0
          if hostCrc8Ccitt (BitVec.ofNat 8 frameLen :: frameData) 0x07 ≠ frameCrc.toNat then .skip (buf.drop 2)
          else if (frameLen : ℤ) - 5 < 2 then .skip (buf.drop totalFrame)
          else
            let esbLen := frameLen - 5
            let at_ := fun i => frameData.getD (esbLen + i) 0
            .found ⟨frameData.take esbLen, at_ 0, be32 (at_ 1) (at_ 2) (at_ 3) (at_ 4)⟩ (buf.drop totalFrame)

/-- The bytes a pass that does not break the loop leaves. -/
def HostScan.rest : HostScan → Option (List (BitVec 8))
  | .wait _ => none
  | .skip buf | .found _ buf => some buf

/-- A pass that does not break the loop takes bytes off the buffer. -/
theorem hostScan_shorter {buf rest : List (BitVec 8)} (h : (hostScan buf).rest = some rest) :
    rest.length < buf.length := by
  unfold hostScan at h
  split at h
  case isTrue => cases h
  case isFalse hlong =>
    split at h
    case h_1 => cases h
    case h_2 idx _ =>
      have hdrop : (buf.drop idx).length ≤ buf.length := List.length_drop ▸ Nat.sub_le _ _
      dsimp only at h
      split at h
      case isTrue => cases h
      case isFalse =>
        split at h
        case isTrue => cases h
        case isFalse =>
          split at h
          case isTrue =>
            obtain rfl := Option.some.inj h
            rw [List.length_drop]
            omega
          case isFalse =>
            split at h
            case isTrue =>
              obtain rfl := Option.some.inj h
              rw [List.length_drop]
              omega
            case isFalse =>
              obtain rfl := Option.some.inj h
              rw [List.length_drop]
              omega

/-- The loop of `read_frames`: the packets it yields and the buffer it leaves. -/
def scanFrames (buf : List (BitVec 8)) : List CdcPacket × List (BitVec 8) :=
  match _ : hostScan buf with
  | .wait rest => ([], rest)
  | .skip rest => scanFrames rest
  | .found packet rest =>
    let more := scanFrames rest
    (packet :: more.1, more.2)
termination_by buf.length
decreasing_by
  · exact hostScan_shorter (by rw [‹hostScan buf = _›]; rfl)
  · exact hostScan_shorter (by rw [‹hostScan buf = _›]; rfl)

/-- `read_frames` over the results of its reads: the packets yielded, and a `None` for an idle read. -/
def readFrames (yieldIdle : Bool) (buf : List (BitVec 8)) : List (List (BitVec 8)) → List (Option CdcPacket)
  | [] => []
  | data :: reads =>
    let found := scanFrames (buf ++ data)
    found.1.map some ++ (if data = [] ∧ yieldIdle then [none] else []) ++ readFrames yieldIdle found.2 reads

/-! ## Frames found -/

/-- A round of the script is a round of the firmware. -/
theorem hostCrcBit_toNat (crc : BitVec 8) : hostCrcBit crc.toNat = (crcBit crc).toNat := by
  revert crc
  decide +kernel

/-- The script and the firmware compute the same checksum. -/
theorem hostCrc8Ccitt_toNat (data : List (BitVec 8)) (init : BitVec 8) :
    hostCrc8Ccitt data init.toNat = (crc8Ccitt init data).toNat := by
  have hrounds : ∀ (rounds : List ℕ) (crc : BitVec 8),
      rounds.foldl (fun crc _ => hostCrcBit crc) crc.toNat = (rounds.foldl (fun crc _ => crcBit crc) crc).toNat := by
    intro rounds
    induction rounds with
    | nil => exact fun _ => rfl
    | cons _ rounds ih =>
      intro crc
      rw [List.foldl_cons, List.foldl_cons, hostCrcBit_toNat]
      exact ih _
  induction data generalizing init with
  | nil => rfl
  | cons b data ih =>
    have hbyte : (List.range 8).foldl (fun crc _ => hostCrcBit crc) (init.toNat ^^^ b.toNat) =
        (crcByte init b).toNat := by
      rw [← BitVec.toNat_xor, hrounds]
      rfl
    rw [hostCrc8Ccitt, List.foldl_cons, hbyte]
    exact ih _

section Scan

variable {p : CdcPacket} {rest part : List (BitVec 8)}

theorem findSync_sync (rest : List (BitVec 8)) : findSync (0xAA :: 0x55 :: rest) = some 0 := if_pos ⟨rfl, rfl⟩

/-- A whole frame at the front of the buffer is found. -/
theorem hostScan_frame (h : p.Sized) (rest : List (BitVec 8)) : hostScan (p.frame ++ rest) = .found p rest := by
  have hlen := CdcPacket.frameLen_toNat h
  have hbody := p.body_length
  have hlength : (p.frame ++ rest).length = p.payload.length + 9 + rest.length := by
    rw [List.length_append, CdcPacket.frame_length]
  have hsync : findSync (p.frame ++ rest) = some 0 := by
    rw [CdcPacket.frame_eq]
    exact findSync_sync _
  have hbyte : (p.frame ++ rest).getD 2 0 = p.frameLen := by
    rw [CdcPacket.frame_eq]
    rfl
  have hafter : (p.frame ++ rest).drop 3 = p.body ++ (p.crc :: rest) := by
    rw [CdcPacket.frame_eq]
    simp
  have hdata : ((p.frame ++ rest).drop 3).take (p.payload.length + 5) = p.body := by
    rw [hafter, ← hbody, List.take_left]
  have hcrcByte : (p.frame ++ rest).getD (3 + (p.payload.length + 5)) 0 = p.crc := by
    have hdrop : (p.frame ++ rest).getD (3 + (p.payload.length + 5)) 0 =
        ((p.frame ++ rest).drop 3).getD p.body.length 0 := by
      rw [hbody, List.getD_eq_getElem?_getD, List.getD_eq_getElem?_getD, List.getElem?_drop]
    rw [hdrop, hafter]
    simp
  have hrest : (p.frame ++ rest).drop (3 + (p.payload.length + 5) + 1) = rest := by
    rw [show 3 + (p.payload.length + 5) + 1 = p.frame.length by rw [CdcPacket.frame_length]; omega, List.drop_left]
  have hcrc : hostCrc8Ccitt (BitVec.ofNat 8 (p.payload.length + 5) :: p.body) 0x07 = p.crc.toNat := by
    rw [CdcPacket.crc_eq]
    exact hostCrc8Ccitt_toNat _ 0x07
  have hpayload : p.body.take p.payload.length = p.payload := List.take_left
  have htail : ∀ i, p.body.getD (p.payload.length + i) 0 = (p.rssi :: be32Bytes p.rxTicks).getD i 0 := by
    intro i
    rw [List.getD_eq_getElem?_getD, List.getD_eq_getElem?_getD, CdcPacket.body,
      List.getElem?_append_right (Nat.le_add_right _ _), Nat.add_sub_cancel_left]
  obtain ⟨htwo, -⟩ := h
  unfold hostScan
  rw [if_neg (by omega), hsync]
  simp only [List.drop_zero]
  rw [if_neg (by omega), hbyte, hlen, if_neg (by omega), hdata, hcrcByte, if_neg (not_not.mpr hcrc), if_neg (by omega),
    hrest, Nat.add_sub_cancel, hpayload, htail, htail, htail, htail, htail]
  refine congrArg (HostScan.found · rest) ?_
  exact congrArg (CdcPacket.mk p.payload p.rssi) (be32_be32Bytes p.rxTicks)

/-- For the rest of a frame the loop waits. -/
theorem hostScan_part (h : p.Sized) (hpart : part <+: p.frame) (hshort : part.length < p.frame.length) :
    hostScan part = .wait part := by
  unfold hostScan
  split
  case isTrue => rfl
  case isFalse hfour =>
    obtain ⟨missing, hframe⟩ := hpart
    rw [CdcPacket.frame_eq] at hframe
    match part, hframe with
    | a :: b :: c :: rest, hframe =>
      simp only [List.cons_append, List.cons.injEq] at hframe
      obtain ⟨rfl, rfl, rfl, -⟩ := hframe
      rw [findSync_sync]
      simp only [List.drop_zero]
      have hbyte : (0xAA :: 0x55 :: p.frameLen :: rest).getD 2 0 = p.frameLen := rfl
      rw [CdcPacket.frame_length] at hshort
      rw [if_neg (by omega), hbyte, CdcPacket.frameLen_toNat h, if_pos (by omega)]
    | [], _ => exact absurd (Nat.zero_lt_succ 3) hfour
    | [_], _ => exact absurd (by decide : 1 < 4) hfour
    | [_, _], _ => exact absurd (by decide : 2 < 4) hfour

/-- The loop takes whole frames off the buffer and waits for the rest of the next. -/
theorem scans_frames : Scans CdcPacket.frame CdcPacket.Sized scanFrames := by
  intro packets part hsized hpart
  induction packets with
  | nil =>
    have hwait : hostScan part = .wait part := by
      rcases hpart with rfl | ⟨p, hp, hprefix, hshort⟩
      · rfl
      · exact hostScan_part hp hprefix hshort
    rw [List.flatMap_nil, List.nil_append, scanFrames]
    split
    case h_1 rest heq =>
      obtain rfl := HostScan.wait.inj (hwait.symm.trans heq)
      rfl
    case h_2 heq => cases hwait.symm.trans heq
    case h_3 heq => cases hwait.symm.trans heq
  | cons p packets ih =>
    have hfound := hostScan_frame (hsized p List.mem_cons_self) (packets.flatMap CdcPacket.frame ++ part)
    rw [List.flatMap_cons, List.append_assoc, scanFrames]
    split
    case h_1 heq => cases hfound.symm.trans heq
    case h_2 heq => cases hfound.symm.trans heq
    case h_3 packet rest heq =>
      obtain ⟨rfl, rfl⟩ := HostScan.found.inj (hfound.symm.trans heq)
      rw [ih fun q hq => hsized q (List.mem_cons_of_mem _ hq)]

/-- The packets among what the generator yields are those the loop finds in the reads. -/
theorem readFrames_packets (yieldIdle : Bool) (buf : List (BitVec 8)) (reads : List (List (BitVec 8))) :
    (readFrames yieldIdle buf reads).filterMap id = (feed scanFrames buf reads).1 := by
  induction reads generalizing buf with
  | nil => rfl
  | cons data reads ih =>
    have hidle : (if data = [] ∧ yieldIdle then [none] else ([] : List (Option CdcPacket))).filterMap id = [] := by
      split <;> rfl
    have hpackets : ∀ packets : List CdcPacket, (packets.map some).filterMap id = packets := by
      intro packets
      rw [List.filterMap_map]
      exact List.filterMap_some
    rw [readFrames, List.filterMap_append, List.filterMap_append, hidle, hpackets, List.append_nil, ih]
    rfl

end Scan

/-- However the stream of some frames is cut into reads, the packets yielded are those whose frames lie within the
bytes read. -/
theorem readFrames_eq {packets : List CdcPacket} (hsized : ∀ p ∈ packets, p.Sized) {reads : List (List (BitVec 8))}
    (hstream : reads.flatten <+: packets.flatMap CdcPacket.frame) (yieldIdle : Bool) :
    (readFrames yieldIdle [] reads).filterMap id = wholeIn CdcPacket.frame packets reads.flatten.length := by
  rw [readFrames_packets]
  exact feed_eq scans_frames hsized hstream fun p _ => p.frame_ne_nil

end Collect

end SlimeReceiver
