import SlimeReceiver.Tdma.State

/-! # State of the receiver

The scheduler together with what `connection/esb.c` keeps for each tracker's radio link and the
test-all policy. As in the scheduler, `tracker_slots[i].field` is written `field i`, here with the
fields grouped by the code that owns them.

* **`SequenceSlot`** — packet sequence, statistics and decision counters of a tracker.
* **`PingSlot`** — PING counter tracking.
* **`CommandSlot`**, **`WomSlot`** — the pending remote command and the WOM transaction.
* **`TestAll`** — the sticky test-all policy (`test_all_*`).
* **`BroadcastTask`**, **`PolicyTask`** — how far a thread has come in an operation that spans
  several critical sections.
* **`Receiver`** — all of it. -/

namespace SlimeReceiver

/-! ## Packets -/

/-- `struct packet_stats`. Counters are `uint32_t`, the per-status counters `uint16_t`. -/
structure PacketStats where
  totalReceived : BitVec 32
  normalPackets : BitVec 32
  gapEvents : BitVec 32
  outOfOrder : BitVec 32
  duplicatePackets : BitVec 32
  restartEvents : BitVec 32
  totalGaps : BitVec 32
  lastSequence : BitVec 32
  lastPacketTime : ℕ
  firstPacket : Bool
  packetsInLastSecond : BitVec 32
  lastTpsTime : ℕ
  currentTps : BitVec 32
  statusReceived : BitVec 16
  statusLost : BitVec 16

/-- `memset(&stats, 0, sizeof(struct packet_stats))`. -/
def PacketStats.zero : PacketStats where
  totalReceived := 0
  normalPackets := 0
  gapEvents := 0
  outOfOrder := 0
  duplicatePackets := 0
  restartEvents := 0
  totalGaps := 0
  lastSequence := 0
  lastPacketTime := 0
  firstPacket := false
  packetsInLastSecond := 0
  lastTpsTime := 0
  currentTps := 0
  statusReceived := 0
  statusLost := 0

/-- The part of a slot the packet path works on. -/
structure SequenceSlot where
  lastPacketSequence : BitVec 8
  sequenceInitialized : Bool
  stats : PacketStats
  decisionReceived : BitVec 32
  decisionGaps : BitVec 32

def SequenceSlot.zero : SequenceSlot where
  lastPacketSequence := 0
  sequenceInitialized := false
  stats := .zero
  decisionReceived := 0
  decisionGaps := 0

/-! ## PINGs -/

/-- `PING_TIMEOUT_MS`. -/
def pingTimeoutMs : ℕ := 5000

/-- The part of a slot that follows the PING counter. -/
structure PingSlot where
  lastPingCounter : BitVec 8
  pingCounterInitialized : Bool
  lastPingTime : ℕ
  lastPongQueuedCounter : BitVec 8
  pipeMismatchCount : BitVec 8
  crcErrorCount : BitVec 8

def PingSlot.zero : PingSlot where
  lastPingCounter := 0
  pingCounterInitialized := false
  lastPingTime := 0
  lastPongQueuedCounter := 0
  pipeMismatchCount := 0
  crcErrorCount := 0

/-! ## Commands -/

/-- `ESB_PONG_FLAG_NORMAL`. -/
def pongFlagNormal : BitVec 8 := 0x00
/-- `ESB_PONG_FLAG_SHUTDOWN`. -/
def pongFlagShutdown : BitVec 8 := 0x01
/-- `ESB_PONG_FLAG_SET_CHANNEL`. -/
def pongFlagSetChannel : BitVec 8 := 0x0A
/-- `ESB_PONG_FLAG_CLEAR_CHANNEL`. -/
def pongFlagClearChannel : BitVec 8 := 0x0B
/-- `ESB_PONG_FLAG_SENS_SET`. -/
def pongFlagSensSet : BitVec 8 := 0x0C
/-- `ESB_PONG_FLAG_TEST_MODE_ON`. -/
def pongFlagTestModeOn : BitVec 8 := 0x1F
/-- `ESB_PONG_FLAG_TEST_MODE_OFF`. -/
def pongFlagTestModeOff : BitVec 8 := 0x20
/-- `ESB_PONG_FLAG_SENS_AUTO`. -/
def pongFlagSensAuto : BitVec 8 := 0x24
/-- `ESB_PONG_FLAG_WOM_CONTROL`. -/
def pongFlagWomControl : BitVec 8 := 0x28
/-- `ESB_PING_FLAG_WOM_RESULT`. -/
def pingFlagWomResult : BitVec 8 := 0x29
/-- `ESB_PING_FLAG_WOM_ERROR`. -/
def pingFlagWomError : BitVec 8 := 0x2A
/-- `ESB_PONG_FLAG_OTA_ABORT`. -/
def pongFlagOtaAbort : BitVec 8 := 0x31
/-- `ESB_PONG_FLAG_OTA_SUPPRESS`. -/
def pongFlagOtaSuppress : BitVec 8 := 0x32
/-- `ESB_PONG_FLAG_DATA_COLLECT_BATCH_ON`. -/
def pongFlagDataCollectBatchOn : BitVec 8 := 0x34
/-- `ESB_PONG_FLAG_METADATA_REQUEST`. -/
def pongFlagMetadataRequest : BitVec 8 := 0x36
/-- `ESB_PONG_FLAG_CHANNEL_CONFIRM`. -/
def pongFlagChannelConfirm : BitVec 8 := 0x37
/-- `ESB_PING_COMMAND_MASK`. -/
def pingCommandMask : BitVec 8 := 0x7F

/-- The pending remote command of a tracker and the arguments a PONG carries with it. -/
structure CommandSlot where
  trackerRemoteCommand : BitVec 8
  pendingCmdArg : BitVec 8
  trackerTestOnTps : BitVec 16

def CommandSlot.zero : CommandSlot where
  trackerRemoteCommand := 0
  pendingCmdArg := 0
  trackerTestOnTps := 0

/-- `ESB_WOM_TIMEOUT_MAX_MINUTES`. -/
def womTimeoutMaxMinutes : BitVec 16 := 35791
/-- `ESB_WOM_TIMEOUT_CLEAR`. -/
def womTimeoutClear : BitVec 16 := 0xffff
/-- `ESB_WOM_ENTER`. -/
def womEnter : BitVec 16 := 0xfffe
/-- `ECANCELED` of the firmware's C library. -/
def ecanceled : BitVec 16 := 140

/-- The WOM transaction of a tracker. -/
structure WomSlot where
  womToken : BitVec 16
  womMinutes : BitVec 16
  womError : BitVec 16
  womComplete : Bool
  womAdvertised : Bool
  womFirstPingCounter : BitVec 8

def WomSlot.zero : WomSlot where
  womToken := 0
  womMinutes := 0
  womError := 0
  womComplete := false
  womAdvertised := false
  womFirstPingCounter := 0

/-! ## The test-all policy -/

/-- `TEST_ALL_RATE_QUANTUM_TPS`. -/
def testAllRateQuantumTps : ℕ := 10
/-- `TEST_ALL_JOIN_CONFIG_GRACE_MS`. -/
def testAllJoinConfigGraceMs : ℕ := 1500

/-- The static variables `test_all_*`. -/
structure TestAll where
  stateValid : Bool
  enabled : Bool
  broadcasting : Bool
  confirmedMask : TrackerMask
  /-- `test_all_ready_after_ms`; 0 stands for no grace. -/
  readyAfterMs : ℕ → BitVec 32
  requestedTps : BitVec 16
  effectiveTps : BitVec 16
  generation : BitVec 32

def TestAll.init : TestAll where
  stateValid := false
  enabled := false
  broadcasting := false
  confirmedMask := 0
  readyAfterMs := fun _ => 0
  requestedTps := 0
  effectiveTps := 0
  generation := 0

/-- What an all-target test command turns on or off. -/
inductive AllCommand
  | on (tps : BitVec 16)
  | off
  deriving DecidableEq, Repr

/-- The holder of `test_all_mutex`: the body of an all-target test command. -/
inductive BroadcastTask
  | idle
  /-- The guard is set, the token not yet drawn. -/
  | guarded (command : AllCommand)
  /-- The active scan is under way. -/
  | scanning (command : AllCommand) (token : BitVec 32) (scanStart : ℕ)
  /-- The scan is over and the final critical section next. -/
  | scanned (command : AllCommand) (token : BitVec 32) (mask : TrackerMask)
  /-- Superseded; the guard is still to be released. -/
  | aborting
  deriving DecidableEq, Repr

/-- What the holder of `tracker_store_lock` still has to do for the test-all policy. -/
inductive PolicyTask
  | idle
  /-- `test_all_note_layout` and then `test_all_update_effective` after a publication. -/
  | noteLayout (oldMask newMask : TrackerMask) (activeCount now : ℕ)
  | updateEffective (activeCount now : ℕ)
  /-- `test_all_reconcile(now)` found the policy in force and is about to read `test_all_enabled`. -/
  | reconcile (now : ℕ)
  /-- `test_all_reconcile(now)` is about to enter its critical section. -/
  | reconcileQueued (now : ℕ) (enabled : Bool)
  deriving DecidableEq, Repr

/-! ## The receiver -/

/-- The receiver. -/
structure Receiver where
  tdma : Tdma
  sequence : ℕ → SequenceSlot
  ping : ℕ → PingSlot
  command : ℕ → CommandSlot
  wom : ℕ → WomSlot
  womNextToken : BitVec 16
  decisionReadyMask : TrackerMask
  decisionFenceMask : TrackerMask
  autoLossResetEpoch : BitVec 32
  testAll : TestAll
  broadcastTask : BroadcastTask
  policyTask : PolicyTask

/-- The receiver after reset. -/
def Receiver.init : Receiver where
  tdma := .init
  sequence := fun _ => .zero
  ping := fun _ => .zero
  command := fun _ => .zero
  wom := fun _ => .zero
  womNextToken := 0
  decisionReadyMask := 0
  decisionFenceMask := BitVec.allOnes 32
  autoLossResetEpoch := 0
  testAll := .init
  broadcastTask := .idle
  policyTask := .idle

end SlimeReceiver
