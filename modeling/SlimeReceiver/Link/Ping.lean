import SlimeReceiver.Link.Wom

/-! # PINGs and PONGs

A PING is answered in the radio interrupt (`ack_handler`) and processed later in the event
interrupt (`esb_receive_ping`); the two are separate steps.

* **`selectPongCommand`**, **`ackPing`** — the answer, and the arming of a WOM transaction.
* **`pingVerdict`** — what the PING counter says.
* **`trackPing`**, **`confirmCommand`**, **`receivePing`** — the processing. -/

namespace SlimeReceiver

open Function (update)

/-- A PING packet. -/
structure PingPacket where
  trackerId : ℕ
  counter : BitVec 8
  /-- `data[7]`. -/
  flags : BitVec 8
  /-- `data[8]`, `data[9]`. -/
  value : BitVec 16
  /-- `data[10]`, `data[11]`. -/
  token : BitVec 16
  /-- The checksum at the end matches. -/
  crcValid : Bool
  pipe : ℕ

/-- `ping_ack_flag`. -/
def PingPacket.ackFlag (p : PingPacket) : BitVec 8 := p.flags &&& pingCommandMask

/-- `pipe == 1 + (tracker_id % 7)`. -/
def PingPacket.onOwnPipe (p : PingPacket) : Bool := p.pipe == 1 + p.trackerId % 7

namespace Receiver

/-! ## The answer -/

/-- `channel_command_for_tracker`. -/
inductive MigrationCommand
  | none
  | setChannel
  | clearChannel
  deriving DecidableEq, Repr

/-- What the answer depends on outside this model: channel migration, collection, metadata and
OTA. -/
structure PongEnvironment where
  migration : MigrationCommand
  /-- A metadata request is active or pending. -/
  metadataWaiting : Bool
  /-- A single-target collection runs and this is not its target. -/
  collectShutdown : Bool
  /-- An OTA relay runs and this is not one of its targets. -/
  otaSuppress : Bool
  /-- `esb_ota_relay_abort_pending`. -/
  otaAborting : Bool
  /-- `esb_ota_relay_fill_ack` replaced the PONG. -/
  otaReplaces : Bool
  /-- `esb_get_rf_channel` reports a channel to confirm. -/
  channelKnown : Bool

/-- The command of the PONG, from the pending command down the overrides. -/
def selectPongCommand (env : PongEnvironment) (p : PingPacket) (r : Receiver) : BitVec 8 :=
  let pending := (r.command p.trackerId).trackerRemoteCommand
  let withMetadata :=
    if pending = pongFlagNormal ∧ env.metadataWaiting then pongFlagMetadataRequest else pending
  let migrated := match env.migration with
    | .none => withMetadata
    | .setChannel => pongFlagSetChannel
    | .clearChannel => pongFlagClearChannel
  let collected := if env.collectShutdown then pongFlagShutdown else migrated
  let suppressed :=
    if collected = pongFlagNormal ∧ env.otaSuppress then pongFlagOtaSuppress else collected
  let aborted := if env.otaAborting then pongFlagOtaAbort else suppressed
  -- A previous outcome of the tracker is drained before a new WOM transaction is issued.
  if aborted = pongFlagWomControl ∧ (r.wom p.trackerId).womAdvertised = false ∧
      p.ackFlag ≠ pongFlagNormal then pongFlagNormal
  else aborted

/-- The four argument bytes of a PONG, for the commands whose arguments this model follows. -/
inductive PongPayload
  | wom (minutes token : BitVec 16)
  | testOn (tps : BitVec 16)
  | batchOn (arg : BitVec 8)
  | other
  deriving DecidableEq, Repr

/-- A PONG. -/
structure Pong where
  trackerId : ℕ
  counter : BitVec 8
  command : BitVec 8
  payload : PongPayload
  deriving DecidableEq, Repr

/-- The arguments of the selected command. -/
def pongPayload (command : BitVec 8) (trackerId : ℕ) (r : Receiver) : PongPayload :=
  if command = pongFlagWomControl then
    .wom (r.wom trackerId).womMinutes (r.wom trackerId).womToken
  else if command = pongFlagTestModeOn then .testOn (r.command trackerId).trackerTestOnTps
  else if command = pongFlagDataCollectBatchOn then .batchOn (r.command trackerId).pendingCmdArg
  else .other

/-- The command `ack_handler` answers with: channel probes leave the pending command alone. -/
def ackCommand (env : PongEnvironment) (p : PingPacket) (r : Receiver) : BitVec 8 :=
  if p.flags &&& 0x80 ≠ 0 then pongFlagChannelConfirm else r.selectPongCommand env p

/-- The PONG of `ack_handler`; none when the PING is invalid, the channel to confirm is unknown or
OTA replaces it. -/
def pongFor (env : PongEnvironment) (p : PingPacket) (r : Receiver) : Option Pong :=
  let command := r.ackCommand env p
  if p.trackerId ≥ maxTrackers ∨ p.crcValid = false then none
  else if command = pongFlagChannelConfirm ∧ env.channelKnown = false then none
  else if env.otaReplaces = true ∧ env.otaAborting = false ∧ p.flags &&& 0x80 = 0 then none
  else some
    { trackerId := p.trackerId
      counter := p.counter
      command := command
      payload := r.pongPayload command p.trackerId }

/-- The PONG carries the pending WOM request and is the first to do so. -/
def armsWom (env : PongEnvironment) (pong : Pong) (r : Receiver) : Bool :=
  !env.otaAborting && pong.command == pongFlagWomControl &&
    (r.command pong.trackerId).trackerRemoteCommand == pongFlagWomControl &&
    (r.wom pong.trackerId).womToken != 0 &&
    pong.payload ==
      .wom (r.wom pong.trackerId).womMinutes (r.wom pong.trackerId).womToken &&
    !(r.wom pong.trackerId).womAdvertised

/-- The PING branch of `ack_handler`. -/
def ackPing (env : PongEnvironment) (p : PingPacket) (r : Receiver) : Receiver × Option Pong :=
  match r.pongFor env p with
  | none => (r, none)
  | some pong =>
    (if r.armsWom env pong then
      { r with wom := update r.wom p.trackerId { r.wom p.trackerId with
          womFirstPingCounter := p.counter
          womAdvertised := true } }
    else r, some pong)

/-! ## The counter -/

/-- What the counter of a PING says about it. -/
inductive PingVerdict
  | first
  /-- No PING for `PING_TIMEOUT_MS`. -/
  | timeout
  | duplicate
  | outOfOrder
  /-- A large step back to a small counter. -/
  | restart
  /-- A step forward, with or without loss. -/
  | progress
  deriving DecidableEq, Repr

end Receiver

open Receiver in
/-- The classification in `esb_receive_ping`. -/
def PingSlot.verdict (counter : BitVec 8) (now : ℕ) (slot : PingSlot) : PingVerdict :=
  if !slot.pingCounterInitialized then .first
  else if slot.lastPingTime > 0 ∧ now - slot.lastPingTime > pingTimeoutMs then .timeout
  else
    let counterDiff := (counter - slot.lastPingCounter).toNat
    if counterDiff = 0 then .duplicate
    else if counterDiff ≤ 100 then .progress
    else if counterDiff > 128 then
      if 256 - counterDiff ≤ 10 then .outOfOrder
      else if counter < 5 then .restart
      else .progress
    else .progress

/-- The slot after a PING that is processed further. -/
def PingSlot.follow (counter : BitVec 8) (now : ℕ) (slot : PingSlot) : PingSlot :=
  { slot with
    lastPingCounter := counter
    lastPingTime := now }

/-- The slot after a PING that starts the counter again. -/
def PingSlot.restart (counter : BitVec 8) (now : ℕ) (slot : PingSlot) : PingSlot :=
  { slot.follow counter now with
    pingCounterInitialized := true
    lastPongQueuedCounter := 0xFF }

namespace Receiver

/-- The PING slot of a tracker replaced. -/
def withPing (trackerId : ℕ) (slot : PingSlot) (r : Receiver) : Receiver :=
  { r with ping := update r.ping trackerId slot }

/-- A tracker whose PING counter started over: `test_all_invalidate_tracker` under the policy. -/
def recoverTracker (trackerId : ℕ) (r : Receiver) : Receiver :=
  if r.testAll.stateValid then r.testAllInvalidateTracker trackerId r.tdma.uptime else r

/-- A reboot: the received sequence is unrelated to the old stream. -/
def reanchorSequence (trackerId : ℕ) (r : Receiver) : Receiver :=
  (r.withSequence trackerId { r.sequence trackerId with
    sequenceInitialized := false
    stats := { (r.sequence trackerId).stats with
      restartEvents := (r.sequence trackerId).stats.restartEvents + 1 } }).fenceTracker trackerId

/-- The counter part of `esb_receive_ping`, and whether the PING is processed further. -/
def trackPing (p : PingPacket) (r : Receiver) : Receiver × Bool :=
  let slot := r.ping p.trackerId
  let now := r.tdma.uptime
  match slot.verdict p.counter now with
  | .first => (r.withPing p.trackerId (slot.restart p.counter now), true)
  | .timeout =>
    ((r.withPing p.trackerId (slot.restart p.counter now)).recoverTracker p.trackerId, true)
  | .restart =>
    (((r.withPing p.trackerId (slot.restart p.counter now)).reanchorSequence
      p.trackerId).recoverTracker p.trackerId, true)
  | .duplicate =>
    (r.withPing p.trackerId { slot with lastPingTime := now },
      p.counter != slot.lastPongQueuedCounter)
  | .outOfOrder => (r.withPing p.trackerId { slot with lastPingTime := now }, false)
  | .progress => (r.withPing p.trackerId (slot.follow p.counter now), true)

/-! ## Confirmations -/

/-- `ping_ack_tps`. -/
def pingAckTps (p : PingPacket) : BitVec 16 := if p.ackFlag = pongFlagTestModeOn then p.value else 0

/-- The PING echoes the pending command with its arguments. -/
def echoesCommand (p : PingPacket) (r : Receiver) : Bool :=
  p.ackFlag != pongFlagNormal && p.ackFlag != pongFlagWomControl &&
    p.ackFlag != pingFlagWomResult && p.ackFlag != pingFlagWomError &&
    (r.command p.trackerId).trackerRemoteCommand == p.ackFlag &&
    (p.ackFlag != pongFlagTestModeOn ||
      pingAckTps p == (r.command p.trackerId).trackerTestOnTps) &&
    (p.ackFlag != pongFlagDataCollectBatchOn ||
      (p.value >>> 8).setWidth 8 == (r.command p.trackerId).pendingCmdArg)

/-- `confirms_all`: the echo is what the policy asks for. -/
def confirmsAll (p : PingPacket) (r : Receiver) : Bool :=
  r.testAll.stateValid &&
    ((p.ackFlag == pongFlagTestModeOff && !r.testAll.enabled) ||
      (p.ackFlag == pongFlagTestModeOn && r.testAll.enabled && pingAckTps p == r.testAllWireTps))

/-- The confirmation part of `esb_receive_ping`. -/
def confirmCommand (p : PingPacket) (r : Receiver) : Receiver :=
  if r.echoesCommand p then
    let confirmed := r.withCommand p.trackerId { r.command p.trackerId with
      trackerRemoteCommand := pongFlagNormal }
    if r.confirmsAll p then
      { confirmed with testAll := { confirmed.testAll with
          confirmedMask := setBit confirmed.testAll.confirmedMask p.trackerId } }
    else confirmed
  else r

/-! ## Processing -/

/-- What follows once the counter is accepted. -/
def processPing (p : PingPacket) (r : Receiver) : Receiver :=
  let replied := r.remoteWomReceive p.trackerId p.ackFlag p.value p.token p.counter
  let confirmed := replied.confirmCommand p
  confirmed.withPing p.trackerId { confirmed.ping p.trackerId with
    lastPongQueuedCounter := p.counter }

/-- A PING on a foreign pipe is counted. -/
def notePipe (p : PingPacket) (r : Receiver) : Receiver :=
  if p.onOwnPipe then r
  else r.withPing p.trackerId { r.ping p.trackerId with
    pipeMismatchCount := (r.ping p.trackerId).pipeMismatchCount + 1 }

/-- The pipe of a PING does not matter to its classification. -/
theorem verdict_notePipe (p : PingPacket) (r : Receiver) (now : ℕ) :
    ((r.notePipe p).ping p.trackerId).verdict p.counter now =
      (r.ping p.trackerId).verdict p.counter now := by
  unfold notePipe
  split
  · rfl
  · simp only [withPing, Function.update_self]
    rfl

/-- A PING with a wrong checksum is counted. -/
def noteCrcError (p : PingPacket) (r : Receiver) : Receiver :=
  r.withPing p.trackerId { r.ping p.trackerId with
    crcErrorCount := (r.ping p.trackerId).crcErrorCount + 1 }

/-- `esb_receive_ping`, apart from the evidence it gives the scheduler. -/
def receivePing (p : PingPacket) (r : Receiver) : Receiver :=
  if p.trackerId ≥ maxTrackers then r
  else if !p.crcValid then (r.notePipe p).noteCrcError p
  else if ((r.notePipe p).trackPing p).2 then ((r.notePipe p).trackPing p).1.processPing p
  else ((r.notePipe p).trackPing p).1

/-! ## What PINGs leave alone -/

section Frames

variable (p : PingPacket) (r : Receiver)

theorem ackPing_eq (env : PongEnvironment) : (r.ackPing env p).1 = { r with
    wom := (r.ackPing env p).1.wom } := by
  unfold ackPing
  split
  · rfl
  · simp only []
    split <;> rfl

theorem notePipe_eq : r.notePipe p = { r with ping := (r.notePipe p).ping } := by
  unfold notePipe
  split <;> rfl

theorem recoverTracker_eq (trackerId : ℕ) : r.recoverTracker trackerId = { r with
    testAll := (r.recoverTracker trackerId).testAll
    command := (r.recoverTracker trackerId).command } := by
  unfold recoverTracker
  split <;> rfl

theorem confirmCommand_eq : r.confirmCommand p = { r with
    testAll := (r.confirmCommand p).testAll
    command := (r.confirmCommand p).command } := by
  unfold confirmCommand
  split
  · simp only []
    split <;> rfl
  · rfl

theorem processPing_eq : r.processPing p = { r with
    ping := (r.processPing p).ping
    testAll := (r.processPing p).testAll
    command := (r.processPing p).command
    wom := (r.processPing p).wom } := by
  unfold processPing
  simp only []
  rw [confirmCommand_eq, remoteWomReceive_eq]
  rfl

/-- The counter part leaves the scheduler, the WOM transactions and all tasks alone. -/
theorem trackPing_eq : (r.trackPing p).1 = { r with
    ping := (r.trackPing p).1.ping
    testAll := (r.trackPing p).1.testAll
    command := (r.trackPing p).1.command
    sequence := (r.trackPing p).1.sequence
    decisionReadyMask := (r.trackPing p).1.decisionReadyMask
    decisionFenceMask := (r.trackPing p).1.decisionFenceMask } := by
  unfold trackPing
  simp only []
  split <;> first | rfl | (rw [recoverTracker_eq]; rfl)

/-- Processing a PING leaves the scheduler, the decision epoch and all tasks alone. -/
theorem receivePing_eq : r.receivePing p = { r with
    ping := (r.receivePing p).ping
    testAll := (r.receivePing p).testAll
    command := (r.receivePing p).command
    wom := (r.receivePing p).wom
    sequence := (r.receivePing p).sequence
    decisionReadyMask := (r.receivePing p).decisionReadyMask
    decisionFenceMask := (r.receivePing p).decisionFenceMask } := by
  unfold receivePing
  split
  · rfl
  · split
    · rw [noteCrcError, notePipe_eq]
      rfl
    · split
      · rw [processPing_eq, trackPing_eq, notePipe_eq]
      · rw [trackPing_eq, notePipe_eq]

end Frames

end Receiver

end SlimeReceiver
