import SlimeReceiver.Link.State
import SlimeReceiver.Library.CountedLoop

/-! # Packet sequences and decision evidence

`check_packet_sequence`, which classifies every data packet, and the fence that keeps the loss
decisions from counting an interval across a boundary.

* **`decisionAccept`** — an accepted packet as decision evidence.
* **`esbAutoLossFence`**, **`esbAutoLossInvalidate`**, **`esbRxDiscontinuity`** — the boundaries.
* **`checkPacketSequence`** — the classification, and `checkPacketSequence_classification`,
  everything it can do. -/

namespace SlimeReceiver

open Function (update)

namespace Receiver

/-! ## Boundaries -/

/-- `esb_auto_loss_fence`. -/
def esbAutoLossFence (r : Receiver) : Receiver := { r with decisionFenceMask := BitVec.allOnes 32 }

/-- `esb_auto_loss_invalidate`, apart from the flag of the loss controller. -/
def dropEvidence (r : Receiver) : Receiver :=
  { r with
    autoLossResetEpoch := r.autoLossResetEpoch + 1
    decisionReadyMask := 0
    decisionFenceMask := BitVec.allOnes 32 }

/-- `esb_auto_loss_invalidate`. -/
def esbAutoLossInvalidate (r : Receiver) : Receiver :=
  { r.dropEvidence with
    tdma := { r.tdma with loss := { r.tdma.loss with rxDiscontinuityPending := true } } }

/-- `esb_rx_discontinuity`: received sequences start over as well. -/
def esbRxDiscontinuity (r : Receiver) : Receiver :=
  esbAutoLossInvalidate { r with
    sequence := eachBelow maxTrackers (fun _ slot => { slot with sequenceInitialized := false })
      r.sequence }

/-- A tracker known to have restarted: its next packet starts a new stretch. -/
def fenceTracker (trackerId : ℕ) (r : Receiver) : Receiver :=
  { r with
    decisionReadyMask := clearBit r.decisionReadyMask trackerId
    decisionFenceMask := setBit r.decisionFenceMask trackerId }

/-! ## Accepted packets -/

/-- `decision_accept`: the first packet behind a fence only takes the fence away. -/
def decisionAccept (trackerId : ℕ) (gaps : BitVec 8) (r : Receiver) : Receiver :=
  if hasBit r.decisionFenceMask trackerId then
    { r with
      decisionFenceMask := clearBit r.decisionFenceMask trackerId
      decisionReadyMask := setBit r.decisionReadyMask trackerId }
  else
    { r with
      decisionReadyMask := setBit r.decisionReadyMask trackerId
      sequence := update r.sequence trackerId { r.sequence trackerId with
        decisionReceived := (r.sequence trackerId).decisionReceived + 1
        decisionGaps := (r.sequence trackerId).decisionGaps + gaps.zeroExtend 32 } }

/-- What `check_packet_sequence` returns. -/
inductive SequenceResult
  /-- Code 0. -/
  | normal
  /-- Code 1. -/
  | gap
  /-- Code 2. -/
  | outOfOrder
  /-- Code 3. -/
  | restart
  /-- Code 4. -/
  | duplicate
  deriving DecidableEq, Repr

end Receiver

/-- The TPS bookkeeping at the head of `check_packet_sequence`. -/
def PacketStats.countPacket (currentTime : ℕ) (stats : PacketStats) : PacketStats :=
  let window :=
    if stats.lastTpsTime = 0 then
      { stats with lastTpsTime := currentTime, packetsInLastSecond := 0 }
    else if currentTime - stats.lastTpsTime ≥ 1000 then
      { stats with
        currentTps := stats.packetsInLastSecond
        packetsInLastSecond := 0
        lastTpsTime := currentTime }
    else stats
  { window with
    packetsInLastSecond := window.packetsInLastSecond + 1
    lastPacketTime := currentTime }

/-- A packet that is forwarded: it counts as received. -/
def PacketStats.receive (receivedSeq : BitVec 8) (stats : PacketStats) : PacketStats :=
  { stats with
    totalReceived := stats.totalReceived + 1
    lastSequence := receivedSeq.zeroExtend 32
    statusReceived := stats.statusReceived + 1 }

namespace Receiver

/-- The slot of tracker `trackerId` replaced. -/
def withSequence (trackerId : ℕ) (slot : SequenceSlot) (r : Receiver) : Receiver :=
  { r with sequence := update r.sequence trackerId slot }

/-- `check_packet_sequence` for a stored tracker. The callers drop packets of other trackers. -/
def checkPacketSequence (trackerId : ℕ) (receivedSeq : BitVec 8) (r : Receiver) :
    Receiver × SequenceResult :=
  let slot := r.sequence trackerId
  let stats := slot.stats.countPacket r.tdma.uptime
  let lastSeq := slot.lastPacketSequence
  let diffForward := receivedSeq - lastSeq
  let diffBackward := lastSeq - receivedSeq
  if !slot.sequenceInitialized then
    let received := stats.receive receivedSeq
    ((r.withSequence trackerId { slot with
        lastPacketSequence := receivedSeq
        sequenceInitialized := true
        stats := { received with
          normalPackets := received.normalPackets + 1
          firstPacket := false } }).decisionAccept trackerId 0, .normal)
  else if receivedSeq = lastSeq + 1 then
    let received := stats.receive receivedSeq
    ((r.withSequence trackerId { slot with
        lastPacketSequence := receivedSeq
        stats := { received with normalPackets := received.normalPackets + 1 } }).decisionAccept
      trackerId 0, .normal)
  else if diffForward = 0 then
    (r.withSequence trackerId { slot with
      stats := { stats with duplicatePackets := stats.duplicatePackets + 1 } }, .duplicate)
  else if diffBackward > 0 && diffBackward < 64 then
    (r.withSequence trackerId { slot with
      stats := { stats with outOfOrder := stats.outOfOrder + 1 } }, .outOfOrder)
  else if diffForward > 80 then
    let received := stats.receive receivedSeq
    ((r.withSequence trackerId { slot with
        lastPacketSequence := receivedSeq
        stats := { received with restartEvents := received.restartEvents + 1 } }).fenceTracker
      trackerId, .restart)
  else
    let gaps := diffForward - 1
    let received := stats.receive receivedSeq
    ((r.withSequence trackerId { slot with
        lastPacketSequence := receivedSeq
        stats := { received with
          gapEvents := received.gapEvents + 1
          totalGaps := received.totalGaps + gaps.zeroExtend 32
          statusLost := received.statusLost + gaps.zeroExtend 16 } }).decisionAccept
      trackerId gaps, .gap)

/-! ## Everything the classification can do -/

end Receiver

/-- The sequence number the next packet is compared with, once there is one. -/
def SequenceSlot.anchor (slot : SequenceSlot) : Option (BitVec 8) :=
  if slot.sequenceInitialized then some slot.lastPacketSequence else none

/-- The sequence numbers missing between two accepted ones. -/
def missing (a b : BitVec 8) : BitVec 8 := b - a - 1

/-- `slot'` is `slot` after a forwarded packet with `gaps` sequence numbers missing before it. -/
structure SequenceSlot.Forwards (slot slot' : SequenceSlot) (seq gaps : BitVec 8) : Prop where
  anchor : slot'.anchor = some seq
  decisionReceived : slot'.decisionReceived = slot.decisionReceived
  decisionGaps : slot'.decisionGaps = slot.decisionGaps
  totalReceived : slot'.stats.totalReceived = slot.stats.totalReceived + 1
  totalGaps : slot'.stats.totalGaps = slot.stats.totalGaps + gaps.zeroExtend 32

/-- `stats'` counts a packet that is not forwarded. -/
structure PacketStats.Drops (stats stats' : PacketStats) : Prop where
  totalReceived : stats'.totalReceived = stats.totalReceived
  totalGaps : stats'.totalGaps = stats.totalGaps

@[simp] theorem PacketStats.countPacket_totalReceived (now : ℕ) (stats : PacketStats) :
    (stats.countPacket now).totalReceived = stats.totalReceived := by
  unfold countPacket
  simp only []
  split
  · rfl
  · split <;> rfl

@[simp] theorem PacketStats.countPacket_totalGaps (now : ℕ) (stats : PacketStats) :
    (stats.countPacket now).totalGaps = stats.totalGaps := by
  unfold countPacket
  simp only []
  split
  · rfl
  · split <;> rfl

namespace Receiver

/-- The outcomes of the classification, by what they do to the evidence. -/
inductive Classification (trackerId : ℕ) (seq : BitVec 8) (r : Receiver) :
    Receiver × SequenceResult → Prop
  | accepted (slot : SequenceSlot) (gaps : BitVec 8) (result : SequenceResult) :
      result = .normal ∨ result = .gap → (r.sequence trackerId).Forwards slot seq gaps →
      gaps = ((r.sequence trackerId).anchor.map (missing · seq)).getD 0 →
      Classification trackerId seq r
        ((r.withSequence trackerId slot).decisionAccept trackerId gaps, result)
  | restarted (slot : SequenceSlot) : (r.sequence trackerId).Forwards slot seq 0 →
      Classification trackerId seq r
        ((r.withSequence trackerId slot).fenceTracker trackerId, .restart)
  | dropped (stats : PacketStats) (result : SequenceResult) :
      result = .outOfOrder ∨ result = .duplicate → (r.sequence trackerId).stats.Drops stats →
      Classification trackerId seq r
        (r.withSequence trackerId { r.sequence trackerId with stats := stats }, result)

theorem checkPacketSequence_classification (trackerId : ℕ) (seq : BitVec 8) (r : Receiver) :
    Classification trackerId seq r (r.checkPacketSequence trackerId seq) := by
  unfold checkPacketSequence
  simp only []
  split
  case isTrue hfirst =>
    have hanchor : (r.sequence trackerId).anchor = none := by
      rw [SequenceSlot.anchor, if_neg (by simpa using hfirst)]
    exact .accepted _ 0 _ (.inl rfl)
      ⟨rfl, rfl, rfl, by simp [PacketStats.receive], by simp [PacketStats.receive]⟩
      (by rw [hanchor]; rfl)
  case isFalse hlater =>
    have hinit : (r.sequence trackerId).sequenceInitialized = true := by simpa using hlater
    have hanchor : (r.sequence trackerId).anchor =
        some (r.sequence trackerId).lastPacketSequence := by
      rw [SequenceSlot.anchor, if_pos hinit]
    split
    case isTrue hnext =>
      refine .accepted _ 0 _ (.inl rfl) ⟨?_, rfl, rfl, ?_, ?_⟩ ?_
      · simp [SequenceSlot.anchor, hinit]
      · simp [PacketStats.receive]
      · simp [PacketStats.receive]
      · rw [hanchor, Option.map_some, Option.getD_some, missing, hnext]
        bv_omega
    case isFalse =>
      split
      case isTrue => exact .dropped _ _ (.inr rfl) ⟨by simp, by simp⟩
      case isFalse =>
        split
        case isTrue => exact .dropped _ _ (.inl rfl) ⟨by simp, by simp⟩
        case isFalse =>
          split
          case isTrue =>
            refine .restarted _ ⟨?_, rfl, rfl, ?_, ?_⟩
            · simp [SequenceSlot.anchor, hinit]
            · simp [PacketStats.receive]
            · simp [PacketStats.receive]
          case isFalse =>
            refine .accepted _ _ _ (.inr rfl) ⟨?_, rfl, rfl, ?_, ?_⟩ ?_
            · simp [SequenceSlot.anchor, hinit]
            · simp [PacketStats.receive]
            · simp [PacketStats.receive]
            · rw [hanchor]
              rfl

/-! ## What the packet path leaves alone -/

section Frames

variable (trackerId : ℕ) (gaps seq : BitVec 8) (r : Receiver)

theorem decisionAccept_eq : r.decisionAccept trackerId gaps = { r with
    sequence := (r.decisionAccept trackerId gaps).sequence
    decisionReadyMask := (r.decisionAccept trackerId gaps).decisionReadyMask
    decisionFenceMask := (r.decisionAccept trackerId gaps).decisionFenceMask } := by
  unfold decisionAccept
  split <;> rfl

/-- The classification touches nothing but the sequence slots and the decision masks. -/
theorem checkPacketSequence_eq : (r.checkPacketSequence trackerId seq).1 = { r with
    sequence := (r.checkPacketSequence trackerId seq).1.sequence
    decisionReadyMask := (r.checkPacketSequence trackerId seq).1.decisionReadyMask
    decisionFenceMask := (r.checkPacketSequence trackerId seq).1.decisionFenceMask } := by
  have houtcome := checkPacketSequence_classification trackerId seq r
  generalize r.checkPacketSequence trackerId seq = outcome at houtcome ⊢
  cases houtcome with
  | accepted =>
    rw [decisionAccept_eq]
    rfl
  | restarted | dropped => rfl

@[simp] theorem checkPacketSequence_tdma : (r.checkPacketSequence trackerId seq).1.tdma = r.tdma := by
  rw [checkPacketSequence_eq]

end Frames

end Receiver

end SlimeReceiver
