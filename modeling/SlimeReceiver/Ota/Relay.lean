import SlimeReceiver.Library.Bytes
import SlimeReceiver.Tdma.State

/-! # The OTA relay

The static variables of `esb_ota.c` and what its critical sections do to them. Ids are natural numbers
below `MAX_TRACKERS`; sequence numbers have 16 bits, so `ring_head` is at most 65536 and a natural number
here.

* **`Relay`** — `ota_relay` and the tombstones of aborted trackers.
* **`ringSeqMin`**, **`ringCount`** — what the participants still need.
* **`resetSession`**, **`removeTarget`**, **`queueAbort`** — the end of sessions.
* **`admitTarget`**, **`acceptData`**, **`fillAck`**, **`noteStatus`** — BEGIN, DATA, ACKs and STATUS. -/

namespace SlimeReceiver.Ota

open Function (update)

/-! ## The state -/

/-- `OTA_TX_RING_SIZE`. -/
def otaTxRingSize : ℕ := 128

/-- `OTA_MAX_PARALLEL`. -/
def otaMaxParallel : ℕ := 4

/-- `OTA_DATA_HEADER_SIZE`. -/
def otaDataHeaderSize : ℕ := 4

/-- `OTA_DATA_MAX_PAYLOAD`. -/
def otaDataMaxPayload : ℕ := 60

/-- `OTA_ABORT_TOMBSTONE_TICKS`, and the time a command is repeated: 10 s at 32768 Hz. -/
def tenSecondsTicks : BitVec 32 := 327680

/-- `struct ota_tx_entry`. -/
structure OtaTxEntry where
  data : List (BitVec 8)
  length : ℕ
  deriving DecidableEq, Repr

/-- `struct ota_per_tracker`. -/
structure OtaPerTracker where
  participating : Bool
  status : BitVec 8
  nextSeq : BitVec 16
  /-- 0 stands for no command. -/
  pendingCmdType : BitVec 8
  pendingCmdData : List (BitVec 8)
  pendingCmdSetTicks : BitVec 32
  pendingCmdSendCount : BitVec 32
  lastHidForwardTime : ℤ

/-- The static zeros. -/
def OtaPerTracker.zero : OtaPerTracker := ⟨false, 0, 0, 0, [], 0, 0, 0⟩

/-- `ota_relay`, with `target_ids[0..num_targets)` as a list, and the tombstones. -/
structure Relay where
  active : Bool
  targets : List ℕ
  imageSize : BitVec 32
  totalPackets : BitVec 16
  ring : ℕ → OtaTxEntry
  ringHead : ℕ
  tracker : ℕ → OtaPerTracker
  abortValid : ℕ → Bool
  abortExpiryTicks : ℕ → BitVec 32

/-- The relay after reset. -/
def Relay.init : Relay where
  active := false
  targets := []
  imageSize := 0
  totalPackets := 0
  ring := fun _ => ⟨List.replicate 64 0, 0⟩
  ringHead := 0
  tracker := fun _ => .zero
  abortValid := fun _ => false
  abortExpiryTicks := fun _ => 0

/-- A HID report: the buffer and the length of what is valid of it. -/
structure HidReport where
  data : ℕ → BitVec 8
  len : ℕ

/-- `data[1]`. -/
def HidReport.trackerId (report : HidReport) : ℕ := (report.data 1).toNat

/-- `sys_get_be16(&data[2])`. -/
def HidReport.seq (report : HidReport) : BitVec 16 := be16 (report.data 2) (report.data 3)

/-- `sys_get_be16(&entry->data[2])`. -/
def OtaTxEntry.seq (entry : OtaTxEntry) : BitVec 16 := be16 (entry.data.getD 2 0) (entry.data.getD 3 0)

/-- `seq & OTA_TX_RING_MASK`. -/
def ringIndex (seq : BitVec 16) : ℕ := seq.toNat % otaTxRingSize

namespace Relay

/-! ## The ring -/

/-- `ring_seq_min_locked`. -/
def ringSeqMin (r : Relay) : ℕ :=
  r.targets.foldl (fun least id => if (r.tracker id).nextSeq.toNat < least then (r.tracker id).nextSeq.toNat
    else least) r.ringHead

/-- `ring_count_locked`. -/
def ringCount (r : Relay) : ℕ := r.ringHead - r.ringSeqMin

/-! ## Sessions -/

/-- `reset_session_locked`. -/
def resetSession (r : Relay) : Relay :=
  { r with
    active := false
    targets := []
    ringHead := 0
    tracker := fun id => if id < maxTrackers then { r.tracker id with
        participating := false
        status := 0
        nextSeq := 0
        pendingCmdType := 0
        pendingCmdSetTicks := 0
        pendingCmdSendCount := 0
        lastHidForwardTime := 0 }
      else r.tracker id }

/-- `remove_target_locked`, and whether the last target left. -/
def removeTarget (id : ℕ) (r : Relay) : Relay × Bool :=
  if maxTrackers ≤ id ∨ (r.tracker id).participating = false then (r, false)
  else
    let targets := r.targets.filter fun target => target != id
    ({ r with
      tracker := update r.tracker id { r.tracker id with participating := false }
      targets := targets
      ringHead := if targets = [] then 0 else r.ringHead
      active := if targets = [] then false else r.active }, targets.isEmpty)

/-- `ota_abort_pending_locked`. -/
def abortPending (id : ℕ) (now : BitVec 32) (r : Relay) : Bool :=
  r.abortValid id && decide (0 < signedDistance (r.abortExpiryTicks id) now)

/-- An expired tombstone is dropped when it is looked at. -/
def expireAbort (id : ℕ) (now : BitVec 32) (r : Relay) : Relay :=
  { r with abortValid := update r.abortValid id (r.abortPending id now) }

/-- `queue_abort_locked`. -/
def queueAbort (id : ℕ) (now : BitVec 32) (r : Relay) : Relay :=
  { r with
    abortExpiryTicks := update r.abortExpiryTicks id (now + tenSecondsTicks)
    abortValid := update r.abortValid id true }

/-- The critical section of `esb_ota_forget_tracker`, and whether the last target left. -/
def forgetTracker (id : ℕ) (r : Relay) : Relay × Bool :=
  let removed := r.removeTarget id
  ({ removed.1 with
    tracker := update removed.1.tracker id .zero
    abortValid := update removed.1.abortValid id false
    abortExpiryTicks := update removed.1.abortExpiryTicks id 0 }, removed.2)

/-- The critical section of `cancel_target`, and whether the last target left. -/
def cancelTarget (id : ℕ) (now : BitVec 32) (r : Relay) : Relay × Bool :=
  (r.queueAbort id now).removeTarget id

/-- The loop of `cancel_all_targets` over the remaining targets. -/
def cancelEach (now : BitVec 32) : List ℕ → Relay × Bool → Relay × Bool
  | [], r => r
  | id :: ids, r => cancelEach now ids (r.1.cancelTarget id now)

/-- The critical section of `cancel_all_targets`, and whether the last target left. -/
def cancelAllTargets (now : BitVec 32) (r : Relay) : Relay × Bool :=
  let cancelled := cancelEach now r.targets (r, false)
  (cancelled.1.resetSession, cancelled.2)

end Relay

/-! ## Packets to a tracker -/

/-- `ESB_OTA_DATA_TYPE`. -/
def esbOtaDataType : BitVec 8 := 0x20
/-- `ESB_OTA_STATUS_TYPE`. -/
def esbOtaStatusType : BitVec 8 := 0x21
/-- `ESB_OTA_BEGIN_TYPE`. -/
def esbOtaBeginType : BitVec 8 := 0x23
/-- `ESB_OTA_VERIFY_TYPE`. -/
def esbOtaVerifyType : BitVec 8 := 0x24
/-- `ESB_OTA_ACTIVATE_TYPE`. -/
def esbOtaActivateType : BitVec 8 := 0x25
/-- `ESB_PONG_TYPE`. -/
def esbPongType : BitVec 8 := 0xF1
/-- `ESB_PONG_FLAG_OTA_ABORT`. -/
def esbPongFlagOtaAbort : BitVec 8 := 0x31

namespace HidReport

/-- `sys_get_le32(&data[2])`. -/
def imageSize (report : HidReport) : BitVec 32 :=
  le32 (report.data 2) (report.data 3) (report.data 4) (report.data 5)

/-- `sys_get_le32(&data[6])`. -/
def imageCrc32 (report : HidReport) : BitVec 32 :=
  le32 (report.data 6) (report.data 7) (report.data 8) (report.data 9)

/-- `sys_get_be16(&data[10])`. -/
def totalPackets (report : HidReport) : BitVec 16 := be16 (report.data 10) (report.data 11)

/-- `strncpy(.., &data[13], OTA_BOARD_TARGET_MAX - 1)` into a buffer of zeros. -/
def boardTarget (report : HidReport) : List (BitVec 8) :=
  let name := ((List.range 47).map fun k => report.data (13 + k)).takeWhile fun b => b != 0
  name ++ List.replicate (48 - name.length) 0

/-- `begin_pkt` without its checksum. -/
def beginFields (report : HidReport) : List (BitVec 8) :=
  [esbOtaBeginType, report.data 1] ++ le32Bytes report.imageSize ++ le32Bytes report.imageCrc32 ++
    be16Bytes report.totalPackets ++ [report.data 12] ++ report.boardTarget ++
    (if 63 ≤ report.len then [report.data 61, report.data 62] else [0, 0])

/-- `begin_pkt`. -/
def beginPacket (report : HidReport) : List (BitVec 8) :=
  report.beginFields ++ [crc8Ccitt 0 report.beginFields]

/-- `payload_len`. -/
def payloadLen (report : HidReport) : ℕ := min (report.len - otaDataHeaderSize) otaDataMaxPayload

/-- The firmware bytes of a DATA report. -/
def payload (report : HidReport) : List (BitVec 8) :=
  (List.range report.payloadLen).map fun k => report.data (4 + k)

/-- `pkt` of VERIFY and ACTIVATE. -/
def commandPacket (verify : Bool) (report : HidReport) : List (BitVec 8) :=
  [if verify then esbOtaVerifyType else esbOtaActivateType, report.data 1, 0, 0]

end HidReport

/-- `set_pending_command_locked`. -/
def OtaPerTracker.setPendingCommand (packet : List (BitVec 8)) (now : BitVec 32) (t : OtaPerTracker) :
    OtaPerTracker :=
  { t with
    pendingCmdData := packet
    pendingCmdSetTicks := now
    pendingCmdSendCount := 0
    pendingCmdType := packet.getD 0 0 }

/-- What BEGIN finds in its critical section. -/
inductive Admission
  /-- There are `OTA_MAX_PARALLEL` other targets. -/
  | full
  /-- A session has to be started and the radio operation is not held. -/
  | needsRadio
  | admitted (first : Bool) (relay : Relay)

/-- What an ACK carries. -/
inductive Ack
  | abort (bytes : List (BitVec 8))
  | command (bytes : List (BitVec 8))
  | data (seq : BitVec 16) (bytes : List (BitVec 8))
  deriving DecidableEq, Repr

/-- The PONG that aborts, with the clock reading it is stamped with. -/
def abortPong (id : ℕ) (stampTicks : BitVec 32) : List (BitVec 8) :=
  let fields := [esbPongType, BitVec.ofNat 8 id, 0] ++ be32Bytes stampTicks ++
    [esbPongFlagOtaAbort, 0, 0, 0, 0]
  fields ++ [crc8Ccitt 0x07 fields]

/-- The sequence number a received STATUS asks for, if it is one. -/
def statusSeq (rx : Option (List (BitVec 8))) : Option (BitVec 16) :=
  rx.bind fun d => if 5 ≤ d.length ∧ d.getD 0 0 = esbOtaStatusType then
    some (be16 (d.getD 3 0) (d.getD 4 0)) else none

namespace Relay

/-! ## Reports from the host -/

/-- The session of a BEGIN: the current one, or a new one. -/
def openSession (report : HidReport) (r : Relay) : Relay :=
  if r.active then r
  else { r.resetSession with
    imageSize := report.imageSize
    totalPackets := report.totalPackets }

/-- A tracker becomes a target, or starts over. -/
def enlist (report : HidReport) (now : BitVec 32) (s : Relay) : Relay :=
  let id := report.trackerId
  let fresh : OtaPerTracker := { s.tracker id with
    participating := true
    status := 0
    nextSeq := 0
    lastHidForwardTime := 0 }
  { s with
    targets := if (s.tracker id).participating then s.targets else s.targets ++ [id]
    tracker := update s.tracker id (fresh.setPendingCommand report.beginPacket now)
    active := true
    abortExpiryTicks := update s.abortExpiryTicks id 0
    abortValid := update s.abortValid id false }

/-- The critical section of BEGIN. -/
def admitTarget (report : HidReport) (now : BitVec 32) (acquired : Bool) (r : Relay) : Admission :=
  let id := report.trackerId
  if (r.tracker id).participating = false ∧ otaMaxParallel ≤ r.targets.length then .full
  else if r.active = false ∧ acquired = false then .needsRadio
  else .admitted (!r.active) ((r.openSession report).enlist report now)

/-- The entry of a DATA report; what lies behind its length stays. -/
def dataEntry (report : HidReport) (old : OtaTxEntry) : OtaTxEntry where
  data := [esbOtaDataType, 0, report.data 2, report.data 3] ++ report.payload ++
    old.data.drop (otaDataHeaderSize + report.payloadLen)
  length := otaDataHeaderSize + report.payloadLen

/-- A DATA report is accepted. -/
def accepts (report : HidReport) (r : Relay) : Bool :=
  r.active && decide (5 ≤ report.len) && decide (r.ringCount < otaTxRingSize)

/-- The critical section of DATA. -/
def acceptData (report : HidReport) (r : Relay) : Relay :=
  if r.accepts report then
    { r with
      ring := update r.ring (ringIndex report.seq) (dataEntry report (r.ring (ringIndex report.seq)))
      ringHead := if r.ringHead < report.seq.toNat + 1 then report.seq.toNat + 1 else r.ringHead }
  else r

/-- The critical section of VERIFY and ACTIVATE. -/
def queueCommand (verify : Bool) (report : HidReport) (now : BitVec 32) (r : Relay) : Relay :=
  let id := report.trackerId
  if r.active = true ∧ id < maxTrackers ∧ (r.tracker id).participating = true then
    { r with
      tracker := update r.tracker id ((r.tracker id).setPendingCommand (report.commandPacket verify) now) }
  else r

/-! ## ACKs -/

/-- The ring has the packet a tracker asks for. -/
def hasData (seq : BitVec 16) (r : Relay) : Bool :=
  decide (seq.toNat < r.ringHead) && (r.ring (ringIndex seq)).seq == seq

/-- Priority 2 of `esb_ota_relay_fill_ack`. -/
def fillData (id : ℕ) (seq : Option (BitVec 16)) (r : Relay) : Relay × Option Ack :=
  match seq with
  | none => (r, none)
  | some seq =>
    let entry := r.ring (ringIndex seq)
    ({ r with tracker := update r.tracker id { r.tracker id with nextSeq := seq } },
      if r.hasData seq then some (.data seq ((entry.data.take entry.length).set 1 (BitVec.ofNat 8 id)))
      else none)

/-- `esb_ota_relay_fill_ack` for a participant. -/
def fillTarget (id : ℕ) (now : BitVec 32) (seq : Option (BitVec 16)) (r : Relay) : Relay × Option Ack :=
  let t := r.tracker id
  if t.pendingCmdType = 0 then r.fillData id seq
  else if tenSecondsTicks < now - t.pendingCmdSetTicks then
    ({ r with tracker := update r.tracker id { t with pendingCmdType := 0 } }, none)
  -- VERIFY and ACTIVATE wait while the tracker still needs data
  else if t.pendingCmdType ≠ esbOtaBeginType ∧ seq.any (fun seq => r.hasData seq) = true then
    r.fillData id seq
  else
    ({ r with tracker := update r.tracker id { t with pendingCmdSendCount := t.pendingCmdSendCount + 1 } },
      some (.command t.pendingCmdData))

/-- `esb_ota_relay_fill_ack`. -/
def fillAck (id : ℕ) (now stampTicks : BitVec 32) (rx : Option (List (BitVec 8))) (r : Relay) :
    Relay × Option Ack :=
  if maxTrackers ≤ id then (r, none)
  else if r.abortPending id now then (r, some (.abort (abortPong id stampTicks)))
  else
    let r := r.expireAbort id now
    if r.active = true ∧ (r.tracker id).participating = true then r.fillTarget id now (statusSeq rx)
    else (r, none)

end Relay

/-! ## STATUS -/

/-- `is_terminal`: COMPLETE, ERROR, VERIFY_FAIL, TIMEOUT, BOARD_MISMATCH, SIZE_ERROR, FLASH_ERROR and
SEQ_ERROR. -/
def isTerminal (status : BitVec 8) : Bool :=
  status ∈ [0x06, 0x10, 0x04, 0x15, 0x11, 0x13, 0x12, 0x14]

/-- The status confirms a command: any but IDLE, VERIFY_OK or VERIFY_FAIL, ACTIVATING or COMPLETE. -/
def confirms (type status : BitVec 8) : Bool :=
  if type = esbOtaBeginType then status != 0x00
  else if type = esbOtaVerifyType then status == 0x03 || status == 0x04
  else if type = esbOtaActivateType then status == 0x05 || status == 0x06
  else false

/-- `bytes_written`. -/
def bytesWritten (packet : List (BitVec 8)) : BitVec 32 :=
  if 9 ≤ packet.length then le32 (packet.getD 5 0) (packet.getD 6 0) (packet.getD 7 0) (packet.getD 8 0)
  else 0

/-- The report of a STATUS to the host. -/
def statusReport (packet : List (BitVec 8)) (count targets : ℕ) : List (BitVec 8) :=
  let nextSeq : BitVec 16 := if 5 ≤ packet.length then be16 (packet.getD 3 0) (packet.getD 4 0) else 0
  [0xF4, packet.getD 1 0, packet.getD 2 0] ++ be16Bytes nextSeq ++ le32Bytes (bytesWritten packet) ++
    [BitVec.ofNat 8 (min count 255), BitVec.ofNat 8 targets] ++ List.replicate 5 0

/-- The critical section of a STATUS: the relay, the report to the host if there is one, and whether the
last target left. -/
def Relay.noteStatus (packet : List (BitVec 8)) (now : ℤ) (r : Relay) :
    Relay × Option (List (BitVec 8)) × Bool :=
  let id := (packet.getD 1 0).toNat
  let status := packet.getD 2 0
  let t := r.tracker id
  let forward := status != t.status || isTerminal status || decide (30 ≤ now - t.lastHidForwardTime)
  let noted : Relay := { r with
    tracker := update r.tracker id { t with
      status := status
      pendingCmdType := if confirms t.pendingCmdType status then 0 else t.pendingCmdType
      lastHidForwardTime := if forward then now else t.lastHidForwardTime } }
  let removed := if isTerminal status then noted.removeTarget id else (noted, false)
  (removed.1, if forward then some (statusReport packet noted.ringCount noted.targets.length) else none,
    removed.2)

end SlimeReceiver.Ota
