import Mathlib.Data.List.Dedup
import Mathlib.Data.List.Sort
import SlimeReceiver.Ota.Machine

/-! # An update by the host

`do_update` of `esb_ota.py` on one side of the USB link, the relay on the other. The link loses nothing and
keeps the order; the clocks of the host may expire at any time.

* **`UpdateArgs`**, **`sendBegin`**, **`sendData`** — what is sent, and the reports it is sent in.
* **`Host`**, **`Host.act`**, **`Host.read`** — `do_update`.
* **`UpdateWorld`**, **`updateStep`**, **`updateSystem`** — the host, the link and the receiver. -/

namespace SlimeReceiver.Ota

open Function (update)

/-! ## Reports -/

/-- `REPORT_SIZE`. -/
def reportSize : ℕ := 64

/-- `RECEIVER_OTA_ID`. -/
def receiverOtaId : ℕ := 0xFE

/-- `OTA_PROTOCOL_VERSION`. -/
def otaProtocolVersion : BitVec 8 := 1

/-- `OTA_BOARD_TARGET_MAX`. -/
def otaBoardTargetMax : ℕ := 48

/-- `FirmwareImage`. -/
structure FirmwareImage where
  data : List (BitVec 8)
  baseAddress : ℕ
  crc32 : BitVec 32

/-- The arguments of `do_update`; the board target in UTF-8. -/
structure UpdateArgs where
  trackerIds : List ℕ
  firmware : FirmwareImage
  boardTarget : List (BitVec 8)

namespace UpdateArgs

/-- `image_size`. -/
def imageSize (u : UpdateArgs) : ℕ := u.firmware.data.length

/-- `total_packets`. -/
def totalPackets (u : UpdateArgs) : ℕ := (u.imageSize + otaDataMaxPayload - 1) / otaDataMaxPayload

/-- `firmware.data[offset : offset + OTA_DATA_MAX_PAYLOAD]`. -/
def chunk (u : UpdateArgs) (seq : ℕ) : List (BitVec 8) :=
  (u.firmware.data.drop (seq * otaDataMaxPayload)).take otaDataMaxPayload

/-- Behind the image there is nothing. -/
theorem chunk_eq_nil (u : UpdateArgs) (seq : ℕ) : u.imageSize ≤ seq * otaDataMaxPayload ↔ u.chunk seq = [] := by
  rw [chunk, List.take_eq_nil_iff, List.drop_eq_nil_iff, imageSize]
  exact ⟨.inr, fun h => h.resolve_left (by decide)⟩

-- the length decides it without looking at the image
instance (u : UpdateArgs) (seq : ℕ) : Decidable (u.chunk seq = []) := decidable_of_iff _ (u.chunk_eq_nil seq)

end UpdateArgs

/-- `_write`: the report is filled up with zeros. -/
def writeReport (pkt : List (BitVec 8)) : HidReport where
  data := fun k => pkt.getD k 0
  len := reportSize

/-- `send_begin`; nothing is sent when `struct.pack_into` raises. -/
def sendBegin (u : UpdateArgs) (trackerId : ℕ) : Option HidReport :=
  if trackerId < 256 ∧ u.imageSize < 2 ^ 32 ∧ u.totalPackets < 2 ^ 16 ∧ u.firmware.baseAddress >>> 12 < 2 ^ 16 then
    let target := u.boardTarget.take (otaBoardTargetMax - 1)
    some <| writeReport ([0xF2, BitVec.ofNat 8 trackerId] ++ le32Bytes (.ofNat 32 u.imageSize) ++
      le32Bytes u.firmware.crc32 ++ be16Bytes (.ofNat 16 u.totalPackets) ++ [otaProtocolVersion] ++ target ++
      List.replicate (otaBoardTargetMax - target.length) (0 : BitVec 8) ++
      be16Bytes (.ofNat 16 (u.firmware.baseAddress >>> 12)))
  else none

/-- `send_data`. -/
def sendData (trackerId seq : ℕ) (data : List (BitVec 8)) : Option HidReport :=
  if trackerId < 256 ∧ seq < 2 ^ 16 then
    some <| writeReport ([0xF3, BitVec.ofNat 8 trackerId] ++ be16Bytes (.ofNat 16 seq) ++
      data.take otaDataMaxPayload)
  else none

/-- `send_verify` and `send_activate`. -/
def sendCommand (verify : Bool) (trackerId : ℕ) : HidReport :=
  writeReport [if verify then 0xF5 else 0xF6, .ofNat 8 trackerId]

/-- `send_abort`. -/
def sendAbort : HidReport := writeReport [0xF7, 0xFF]

/-- A STATUS report as `parse_status` reads it. -/
structure StatusReport where
  trackerId : ℕ
  status : BitVec 8
  nextSeq : ℕ
  deriving DecidableEq, Repr

/-- `parse_status`. -/
def parseStatus (report : List (BitVec 8)) : Option StatusReport :=
  if 10 ≤ report.length ∧ report.getD 0 0 = 0xF4 then
    some ⟨(report.getD 1 0).toNat, report.getD 2 0, (be16 (report.getD 3 0) (report.getD 4 0)).toNat⟩
  else none

/-! ## The host -/

/-- `MAX_IN_FLIGHT`: `RING_BUFFER_SIZE` is that of the receiver. -/
def maxInFlight : ℕ := otaTxRingSize - 16

/-- `BURST_SIZE`. -/
def burstSize : ℕ := 48

/-- The size of a burst during the warmup. -/
def warmupBurstSize : ℕ := 8

/-- `max_attempts`. -/
def maxAttempts : ℕ := 5

/-- Where `do_update` is. -/
inductive Phase
  /-- It sends BEGIN to these trackers. -/
  | beginning (rest : List ℕ)
  /-- `wait_for_multi_status` waits for these trackers. -/
  | waiting (pending : List ℕ)
  /-- The streaming phase, with what is left of a burst. -/
  | streaming (burst : ℕ)
  | gapFill
  /-- Steps 3 and 4, which send no DATA. -/
  | closing
  /-- No tracker was ready. -/
  | rejected
  | finished

/-- The streaming phase has been reached. -/
def Phase.streamed : Phase → Bool
  | streaming _ | gapFill | closing | finished => true
  | _ => false

/-- What is left of a burst. -/
def Phase.burst : Phase → ℕ
  | streaming burst => burst
  | _ => 0

/-- The variables of `do_update`. -/
structure Host where
  phase : Phase
  /-- `ready_statuses`. -/
  readyStatuses : ℕ → Option (BitVec 8)
  activeIds : List ℕ
  trackerNextSeq : ℕ → ℕ
  nextSeqToSend : ℕ
  warmup : Bool
  attempt : ℕ
  /-- `overall_timeout` has passed. -/
  timedOut : Bool

/-- `do_update` when it is called. -/
def Host.init (u : UpdateArgs) : Host where
  phase := .beginning u.trackerIds
  readyStatuses := fun _ => none
  activeIds := []
  trackerNextSeq := fun _ => 0
  nextSeqToSend := 0
  warmup := true
  attempt := 0
  timedOut := false

/-- What the host does by itself. -/
inductive HostAct
  /-- The loop over the BEGINs goes on. -/
  | sendBegin
  /-- `resend_cb` for every pending tracker. -/
  | resend
  /-- All trackers have answered, or the time is up. -/
  | start
  | timeOut
  /-- A burst begins. -/
  | burst
  /-- The loop of a burst goes on. -/
  | sendData
  /-- The streaming phase is over. -/
  | gapFill
  /-- The tracker has stalled with an empty ring. -/
  | restream
  /-- All packets are consumed, or the time is up. -/
  | close
  | command (verify : Bool) (trackerId : ℕ)
  | abort

namespace Host

/-- `active_ids` after step 1. -/
def readyIds (u : UpdateArgs) (h : Host) : List ℕ :=
  u.trackerIds.filter fun id => h.readyStatuses id = some 0x01 ∨ h.readyStatuses id = some 0x02

/-- `min_consumed`. -/
def minConsumed (h : Host) : ℕ := (h.activeIds.map h.trackerNextSeq).min?.getD 0

/-- `in_flight`. -/
def inFlight (h : Host) : ℤ := h.nextSeqToSend - h.minConsumed

/-- `burst`. -/
def burstCount (h : Host) : ℕ :=
  (min (if h.warmup then (warmupBurstSize : ℤ) else burstSize) (maxInFlight - h.inFlight)).toNat

/-- What follows step 1. -/
def start (u : UpdateArgs) (h : Host) : Host × List HidReport :=
  if h.readyIds u = [] then ({ h with phase := .rejected }, [sendAbort])
  else ({ h with
    phase := .streaming 0
    activeIds := h.readyIds u
    trackerNextSeq := fun _ => 0
    nextSeqToSend := 0
    warmup := true
    attempt := 0
    timedOut := false }, [])

/-- One step of `do_update`, with what it sends. -/
def act (u : UpdateArgs) (h : Host) (a : HostAct) : Option (Host × List HidReport) :=
  match a, h.phase with
  | .sendBegin, .beginning (id :: rest) =>
    (sendBegin u id).map fun report => ({ h with phase := .beginning rest }, [report])
  | .sendBegin, .beginning [] =>
    some ({ h with phase := .waiting (u.trackerIds.dedup.insertionSort (· ≤ ·)) }, [])
  | .resend, .waiting pending => some (h, pending.filterMap (sendBegin u))
  | .start, .waiting _ => some (h.start u)
  | .timeOut, _ => some ({ h with timedOut := true }, [])
  | .burst, .streaming 0 =>
    if h.nextSeqToSend < u.totalPackets ∧ h.timedOut = false ∧ h.inFlight < maxInFlight then
      some ({ h with phase := .streaming h.burstCount }, [])
    else none
  | .sendData, .streaming (left + 1) =>
    if u.totalPackets ≤ h.nextSeqToSend ∨ u.chunk h.nextSeqToSend = [] then
      some ({ h with phase := .streaming 0 }, [])
    else
      (sendData (h.activeIds.headD 0) h.nextSeqToSend (u.chunk h.nextSeqToSend)).map fun report =>
        ({ h with
          phase := .streaming left
          nextSeqToSend := h.nextSeqToSend + 1 }, [report])
  | .gapFill, .streaming 0 =>
    if u.totalPackets ≤ h.nextSeqToSend ∨ h.timedOut = true then some ({ h with phase := .gapFill }, [])
    else none
  | .restream, .gapFill =>
    if h.minConsumed < u.totalPackets ∧ h.inFlight = 0 then
      some ({ h with
        phase := if h.attempt + 1 < maxAttempts ∧ h.timedOut = false then .streaming 0 else .closing
        nextSeqToSend := h.minConsumed
        warmup := false
        attempt := h.attempt + 1 }, [])
    else none
  | .close, .gapFill => some ({ h with phase := .closing }, [])
  | .command verify id, .closing => if id ∈ h.activeIds then some (h, [sendCommand verify id]) else none
  | .abort, .closing => some ({ h with phase := .finished }, [sendAbort])
  | _, _ => none

/-- A STATUS of a tracker that is being updated. -/
def note (status : StatusReport) (h : Host) : Host :=
  if status.trackerId ∈ h.activeIds then
    if isTerminal status.status then
      { h with
        phase := if h.activeIds.erase status.trackerId = [] then .finished else h.phase
        activeIds := h.activeIds.erase status.trackerId }
    else { h with
      trackerNextSeq := update h.trackerNextSeq status.trackerId status.nextSeq
      warmup := match h.phase with
        | .streaming _ => false
        | _ => h.warmup }
  else h

/-- The statuses `wait_for_multi_status` waits for in step 1. -/
def expectedStatuses : List (BitVec 8) := [0x01, 0x02, 0x11, 0x13, 0x10]

/-- A report is read. -/
def read (report : List (BitVec 8)) (h : Host) : Option Host :=
  match h.phase, parseStatus report with
  | .beginning _, _ | .streaming (_ + 1), _ | .rejected, _ | .finished, _ => none
  | _, none => some h
  | .waiting pending, some status =>
    if status.trackerId ∈ pending ∧ status.status ∈ expectedStatuses then
      some { h with
        phase := .waiting (pending.erase status.trackerId)
        readyStatuses := update h.readyStatuses status.trackerId (some status.status) }
    else some h
  | .streaming 0, some status | .gapFill, some status => some (h.note status)
  | .closing, some _ => some h

end Host

/-! ## The system -/

/-- The HID thread of the receiver. -/
def hidThread : ℕ := 0

/-- The host, the reports on their way and the receiver. -/
structure UpdateWorld where
  host : Host
  outbox : List HidReport
  inbox : List (List (BitVec 8))
  receiver : OtaWorld

/-- The steps. -/
inductive UpdateOp
  | host (act : HostAct)
  /-- The host reads a report. -/
  | read
  /-- The HID thread takes a report. -/
  | deliver
  /-- Anything else happens in the receiver. -/
  | receiver (op : OtaOp)

/-- The visible events. -/
inductive UpdateEvent
  | sent (seq : ℕ)
  | accepted (seq : ℕ)
  /-- A DATA report is dropped although there is a session. -/
  | refused (seq : ℕ)
  /-- A DATA report is dropped since there is no session. -/
  | noSession (seq : ℕ)
  deriving DecidableEq

/-- `seq` of a DATA report. -/
def HidReport.dataSeq (report : HidReport) : Option ℕ :=
  if report.data 0 = 0xF3 then some report.seq.toNat else none

/-- `handle_output_report`: the entries of a report, unless it is for the receiver itself. -/
def relayMicros (report : HidReport) : List Micro :=
  if report.trackerId = receiverOtaId then [] else hidMicros report

/-- The calls of the HID thread come from the host only. -/
def OtaOp.byHost : OtaOp → Bool
  | .call _ (.hid _) => true
  | .call thread _ => thread == hidThread
  | _ => false

/-- A report to the host. -/
def OtaEvent.report : OtaEvent → Option (List (BitVec 8))
  | .forwarded report => some report
  | _ => none

/-- What becomes of a DATA report. -/
def Relay.dataEvent (report : HidReport) (r : Relay) : UpdateEvent :=
  if r.active = false then .noSession report.seq.toNat
  else if r.accepts report then .accepted report.seq.toNat
  else .refused report.seq.toNat

/-- What a step does with a DATA report. -/
def OtaWorld.dataEvents (s : OtaWorld) : OtaOp → List UpdateEvent
  | .run thread _ =>
    match s.threads thread with
    | .data report :: _ => [s.relay.dataEvent report]
    | _ => []
  | _ => []

/-- One step. -/
def updateStep (u : UpdateArgs) (s : UpdateWorld) : UpdateOp → Option (UpdateWorld × List UpdateEvent)
  | .host act =>
    (s.host.act u act).map fun acted =>
      ({ s with
        host := acted.1
        outbox := s.outbox ++ acted.2 }, (acted.2.filterMap HidReport.dataSeq).map .sent)
  | .read =>
    match s.inbox with
    | [] => none
    | report :: rest => (s.host.read report).map fun host => ({ s with host, inbox := rest }, [])
  | .deliver =>
    match s.outbox with
    | [] => none
    | report :: rest =>
      if s.receiver.threads hidThread = [] then
        some ({ s with
          outbox := rest
          receiver := { s.receiver with
            threads := update s.receiver.threads hidThread (relayMicros report) } }, [])
      else none
  | .receiver op =>
    if op.byHost then none
    else (otaStep s.receiver op).map fun r =>
      ({ s with
        receiver := r.1
        inbox := s.inbox ++ r.2.filterMap OtaEvent.report }, s.receiver.dataEvents op)

/-- A run of `do_update` with a receiver. -/
def updateSystem (u : UpdateArgs) (receiver : OtaWorld) : EventSystem UpdateWorld UpdateOp UpdateEvent where
  init := ⟨.init u, [], [], receiver⟩
  step := updateStep u

end SlimeReceiver.Ota
