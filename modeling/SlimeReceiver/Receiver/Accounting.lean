import Mathlib.Algebra.Ring.Nat
import SlimeReceiver.Library.EventSystem
import SlimeReceiver.Receiver.Machine

/-! # Packet accounting

What `check_packet_sequence` counts, over any run of calls for one tracker.

* **`SequenceResult.received`**, **`duplicates`**, **`outOfOrder`**, **`estimatedLost`** — what one
  call adds to the counters.
* **`PacketStats.Counts`** — counters that grew by given amounts, each in its own width;
  `checkPacketSequence_counts` is what one call does to them.
* **`accountingSystem`** — calls for one tracker, with everything else that touches its slot while
  its counters go on.
* **`sequence_accounting`** — every call is counted once, and the counters follow the distance the
  sequence numbers travel. -/

namespace SlimeReceiver

open Function (update)

/-! ## What one call adds -/

namespace Receiver

/-- Packets a call adds to `total_received`. -/
@[simp] def SequenceResult.received : SequenceResult → ℕ
  | .normal | .gap | .restart => 1
  | .outOfOrder | .duplicate => 0

/-- Packets a call adds to `duplicate_packets`. -/
@[simp] def SequenceResult.duplicates : SequenceResult → ℕ
  | .duplicate => 1
  | .normal | .gap | .restart | .outOfOrder => 0

/-- Packets a call adds to `out_of_order`. -/
@[simp] def SequenceResult.outOfOrders : SequenceResult → ℕ
  | .outOfOrder => 1
  | .normal | .gap | .restart | .duplicate => 0

/-- The outcomes count a packet exactly once. -/
theorem SequenceResult.counted_once (result : SequenceResult) :
    result.received + result.duplicates + result.outOfOrders = 1 := by
  cases result <;> rfl

/-- The packets a call estimates as lost: only a gap adds any. -/
def estimatedLost (trackerId : ℕ) (seq : BitVec 8) (r : Receiver) : ℕ :=
  if (r.checkPacketSequence trackerId seq).2 = .gap then
    (missing (r.sequence trackerId).lastPacketSequence seq).toNat
  else 0

end Receiver

/-- `stats'` is `stats` after the counters grew by these amounts, each modulo its own width. -/
structure PacketStats.Counts (stats stats' : PacketStats) (received lost : ℕ) : Prop where
  totalReceived : stats'.totalReceived = stats.totalReceived + BitVec.ofNat 32 received
  totalGaps : stats'.totalGaps = stats.totalGaps + BitVec.ofNat 32 lost
  statusReceived : stats'.statusReceived = stats.statusReceived + BitVec.ofNat 16 received
  statusLost : stats'.statusLost = stats.statusLost + BitVec.ofNat 16 lost

/-- Counters that stay where they are. -/
theorem PacketStats.Counts.refl (stats : PacketStats) : stats.Counts stats 0 0 :=
  ⟨by simp, by simp, by simp, by simp⟩

/-- Growth adds up. -/
theorem PacketStats.Counts.trans {a b c : PacketStats} {n n' l l' : ℕ} (h : a.Counts b n l)
    (h' : b.Counts c n' l') : a.Counts c (n + n') (l + l') where
  totalReceived := by rw [h'.totalReceived, h.totalReceived, BitVec.ofNat_add, BitVec.add_assoc]
  totalGaps := by rw [h'.totalGaps, h.totalGaps, BitVec.ofNat_add, BitVec.add_assoc]
  statusReceived := by rw [h'.statusReceived, h.statusReceived, BitVec.ofNat_add, BitVec.add_assoc]
  statusLost := by rw [h'.statusLost, h.statusLost, BitVec.ofNat_add, BitVec.add_assoc]

/-! The TPS bookkeeping touches no counter of packets. -/

section CountPacket

variable (now : ℕ) (stats : PacketStats)

theorem PacketStats.countPacket_frame {β : Type*} (get : PacketStats → β)
    (h : ∀ a b c d, get { stats with
      packetsInLastSecond := a
      lastPacketTime := b
      lastTpsTime := c
      currentTps := d } = get stats) : get (stats.countPacket now) = get stats := by
  unfold countPacket
  simp only []
  split
  · exact h _ _ _ _
  · split
    · exact h _ _ _ _
    · exact h _ _ _ _

@[simp] theorem PacketStats.countPacket_statusReceived :
    (stats.countPacket now).statusReceived = stats.statusReceived :=
  countPacket_frame now stats (·.statusReceived) fun _ _ _ _ => rfl

@[simp] theorem PacketStats.countPacket_statusLost :
    (stats.countPacket now).statusLost = stats.statusLost :=
  countPacket_frame now stats (·.statusLost) fun _ _ _ _ => rfl

@[simp] theorem PacketStats.countPacket_duplicatePackets :
    (stats.countPacket now).duplicatePackets = stats.duplicatePackets :=
  countPacket_frame now stats (·.duplicatePackets) fun _ _ _ _ => rfl

@[simp] theorem PacketStats.countPacket_outOfOrder :
    (stats.countPacket now).outOfOrder = stats.outOfOrder :=
  countPacket_frame now stats (·.outOfOrder) fun _ _ _ _ => rfl

end CountPacket

namespace Receiver

/-- Everything one call does to the slot of its tracker, as far as the accounting goes. -/
structure CallEffect (trackerId : ℕ) (seq : BitVec 8) (r : Receiver) (slot' : SequenceSlot)
    (result : SequenceResult) (lost : ℕ) : Prop where
  counts : (r.sequence trackerId).stats.Counts slot'.stats result.received lost
  duplicatePackets : slot'.stats.duplicatePackets =
    (r.sequence trackerId).stats.duplicatePackets + BitVec.ofNat 32 result.duplicates
  outOfOrder : slot'.stats.outOfOrder =
    (r.sequence trackerId).stats.outOfOrder + BitVec.ofNat 32 result.outOfOrders
  /-- A forwarded packet becomes the last one, any other leaves the last one alone. -/
  last : slot'.lastPacketSequence =
    if result.received = 1 then seq else (r.sequence trackerId).lastPacketSequence
  initialized : slot'.sequenceInitialized = true
  /-- A packet that continues the stream lies as far ahead as the counters say. -/
  distance : (r.sequence trackerId).sequenceInitialized = true → result ≠ .restart →
    slot'.lastPacketSequence - (r.sequence trackerId).lastPacketSequence =
      BitVec.ofNat 8 (result.received + lost)

/-! `decision_accept` touches the decision counters of a slot only. -/

section DecisionAccept

variable (trackerId : ℕ) (gaps : BitVec 8) (r : Receiver)

theorem decisionAccept_frame {β : Type*} (get : SequenceSlot → β)
    (h : ∀ slot received gaps, get { slot with
      decisionReceived := received
      decisionGaps := gaps } = get slot) :
    get ((r.decisionAccept trackerId gaps).sequence trackerId) = get (r.sequence trackerId) := by
  unfold decisionAccept
  split
  · rfl
  · simp only [Function.update_self]
    exact h _ _ _

@[simp] theorem decisionAccept_stats :
    ((r.decisionAccept trackerId gaps).sequence trackerId).stats = (r.sequence trackerId).stats :=
  decisionAccept_frame trackerId gaps r (·.stats) fun _ _ _ => rfl

@[simp] theorem decisionAccept_lastPacketSequence :
    ((r.decisionAccept trackerId gaps).sequence trackerId).lastPacketSequence =
      (r.sequence trackerId).lastPacketSequence :=
  decisionAccept_frame trackerId gaps r (·.lastPacketSequence) fun _ _ _ => rfl

@[simp] theorem decisionAccept_sequenceInitialized :
    ((r.decisionAccept trackerId gaps).sequence trackerId).sequenceInitialized =
      (r.sequence trackerId).sequenceInitialized :=
  decisionAccept_frame trackerId gaps r (·.sequenceInitialized) fun _ _ _ => rfl

end DecisionAccept

@[simp] theorem sequence_withSequence (trackerId : ℕ) (slot : SequenceSlot) (r : Receiver) :
    (r.withSequence trackerId slot).sequence trackerId = slot := Function.update_self ..

@[simp] theorem sequence_fenceTracker (trackerId : ℕ) (r : Receiver) :
    (r.fenceTracker trackerId).sequence = r.sequence := rfl

/-- A blackout only makes the sequences start over. -/
theorem discontinuity_frame {β : Type*} (get : SequenceSlot → β)
    (h : ∀ slot, get { slot with sequenceInitialized := false } = get slot) (r : Receiver) (id : ℕ) :
    get (r.esbRxDiscontinuity.sequence id) = get (r.sequence id) :=
  eachBelow_frame get (fun _ slot => h slot) _ _

/-- **What one call does.** -/
theorem checkPacketSequence_effect (trackerId : ℕ) (seq : BitVec 8) (r : Receiver) :
    CallEffect trackerId seq r ((r.checkPacketSequence trackerId seq).1.sequence trackerId)
      (r.checkPacketSequence trackerId seq).2 (r.estimatedLost trackerId seq) := by
  unfold estimatedLost
  unfold checkPacketSequence
  simp only []
  split
  case isTrue hfirst =>
    constructor
    case counts => constructor <;> simp [PacketStats.receive]
    case distance =>
      intro hinit
      rw [hinit] at hfirst
      cases hfirst
    all_goals simp [PacketStats.receive]
  case isFalse hlater =>
    have hinit : (r.sequence trackerId).sequenceInitialized = true := by simpa using hlater
    split
    case isTrue hnext =>
      constructor
      case counts => constructor <;> simp [PacketStats.receive]
      case distance =>
        intro _ _
        simp only [decisionAccept_lastPacketSequence, sequence_withSequence, hnext]
        show (r.sequence trackerId).lastPacketSequence + 1 - (r.sequence trackerId).lastPacketSequence = 1#8
        bv_omega
      all_goals simp [PacketStats.receive, hinit]
    case isFalse =>
      split
      case isTrue =>
        constructor
        case counts => constructor <;> simp
        all_goals simp [hinit]
      case isFalse =>
        split
        case isTrue =>
          constructor
          case counts => constructor <;> simp
          all_goals simp [hinit]
        case isFalse =>
          split
          case isTrue =>
            constructor
            case counts => constructor <;> simp [PacketStats.receive]
            all_goals simp [PacketStats.receive, hinit]
          case isFalse =>
            -- The gap estimated is what is missing between the two sequence numbers.
            have hwords : ∀ w, BitVec.ofNat w
                (missing (r.sequence trackerId).lastPacketSequence seq).toNat =
                  (seq - (r.sequence trackerId).lastPacketSequence - 1).zeroExtend w :=
              fun w => BitVec.ofNat_toNat ..
            constructor
            case counts => constructor <;> simp [PacketStats.receive, hwords]
            case distance =>
              intro _ _
              rw [if_pos rfl, BitVec.ofNat_add, hwords]
              simp only [decisionAccept_lastPacketSequence, sequence_withSequence]
              show seq - (r.sequence trackerId).lastPacketSequence =
                1#8 + (seq - (r.sequence trackerId).lastPacketSequence - 1#8).setWidth 8
              rw [BitVec.setWidth_eq]
              bv_omega
            all_goals simp [PacketStats.receive, hinit]

end Receiver

/-! ## Runs of calls -/

open Receiver

/-- What happens to the slot of a tracker while its counters go on. -/
inductive AccountingOp
  /-- A call of `check_packet_sequence`. -/
  | check (sequence : BitVec 8)
  /-- A status packet takes the per-status counters along. -/
  | report
  /-- A PING shows a restart of the tracker. -/
  | pingRestart
  | discontinuity
  /-- Whatever leaves the slot alone: time, other trackers, the boundaries of the loss decisions. -/
  | elsewhere (r : Receiver)

inductive AccountingEvent
  /-- A call; `anchors` when it found no sequence number to compare with. -/
  | checked (anchors : Bool) (result : SequenceResult) (lost : ℕ)
  | reported
  deriving DecidableEq

/-- One step of the accounting of tracker `id`. -/
def accountingStep (id : ℕ) (r : Receiver) : AccountingOp → Option (Receiver × List AccountingEvent)
  | .check seq => some ((r.checkPacketSequence id seq).1,
      [.checked (!(r.sequence id).sequenceInitialized) (r.checkPacketSequence id seq).2
        (r.estimatedLost id seq)])
  | .report => some (r.forwardStatus id, [.reported])
  | .pingRestart => some (r.reanchorSequence id, [])
  | .discontinuity => some (r.esbRxDiscontinuity, [])
  | .elsewhere r' => some ({ r' with sequence := update r'.sequence id (r.sequence id) }, [])

/-- The accounting of tracker `id` from any state of the receiver on. -/
def accountingSystem (id : ℕ) (r : Receiver) :
    EventSystem Receiver AccountingOp AccountingEvent where
  init := r
  step := accountingStep id

namespace AccountingEvent

/-- Calls among the events. -/
def calls : AccountingEvent → ℕ
  | checked .. => 1
  | reported => 0

/-- Packets received. -/
def received : AccountingEvent → ℕ
  | checked _ result _ => result.received
  | reported => 0

/-- Packets estimated as lost. -/
def lost : AccountingEvent → ℕ
  | checked _ _ lost => lost
  | reported => 0

/-- The event belongs to a stretch without a restart or re-anchor. -/
def Continues : AccountingEvent → Prop
  | checked anchors result _ => anchors = false ∧ result ≠ .restart
  | reported => True

instance : DecidablePred Continues
  | checked anchors result _ => inferInstanceAs (Decidable (anchors = false ∧ result ≠ .restart))
  | reported => .isTrue trivial

end AccountingEvent

/-- What `check_packet_sequence` was called for, whatever it found. -/
def PacketStats.handled (stats : PacketStats) : BitVec 32 :=
  stats.totalReceived + stats.duplicatePackets + stats.outOfOrder

/-- The sequence numbers accounted for. -/
def PacketStats.accounted (stats : PacketStats) : BitVec 32 := stats.totalReceived + stats.totalGaps

/-- Packets received in a history. -/
def receivedIn (trace : List AccountingEvent) : ℕ := (trace.map (·.received)).sum

/-- Packets estimated as lost in a history. -/
def lostIn (trace : List AccountingEvent) : ℕ := (trace.map (·.lost)).sum

/-- Calls in a history. -/
def callsIn (trace : List AccountingEvent) : ℕ := (trace.map (·.calls)).sum

/-- **A call is counted exactly once**, as received, as a duplicate or as out of order. -/
theorem Receiver.CallEffect.handled {id : ℕ} {seq : BitVec 8} {r : Receiver} {slot' : SequenceSlot}
    {result : SequenceResult} {lost : ℕ} (h : r.CallEffect id seq slot' result lost) :
    slot'.stats.handled = (r.sequence id).stats.handled + 1 := by
  rw [PacketStats.handled, PacketStats.handled, h.counts.totalReceived, h.duplicatePackets,
    h.outOfOrder]
  cases result with
  | normal | gap | restart | outOfOrder | duplicate =>
    simp only [SequenceResult.received, SequenceResult.duplicates, SequenceResult.outOfOrders]
    bv_omega

section Concat

variable (trace : List AccountingEvent) (e : AccountingEvent)

@[simp] theorem receivedIn_concat : receivedIn (trace ++ [e]) = receivedIn trace + e.received := by
  simp [receivedIn]

@[simp] theorem lostIn_concat : lostIn (trace ++ [e]) = lostIn trace + e.lost := by
  simp [lostIn]

@[simp] theorem callsIn_concat : callsIn (trace ++ [e]) = callsIn trace + e.calls := by
  simp [callsIn]

end Concat

/-- The slot of a tracker after a history, compared with the slot it started from. -/
structure SequenceSlot.Follows (start : SequenceSlot) (trace : List AccountingEvent)
    (slot : SequenceSlot) : Prop where
  totalReceived : slot.stats.totalReceived =
    start.stats.totalReceived + BitVec.ofNat 32 (receivedIn trace)
  totalGaps : slot.stats.totalGaps = start.stats.totalGaps + BitVec.ofNat 32 (lostIn trace)
  handled : slot.stats.handled = start.stats.handled + BitVec.ofNat 32 (callsIn trace)
  status : AccountingEvent.reported ∉ trace →
    start.stats.Counts slot.stats (receivedIn trace) (lostIn trace)
  /-- As long as the stream goes on, the last packet lies as far ahead as the counters say. -/
  distance : (∀ e ∈ trace, e.Continues) →
    slot.lastPacketSequence - start.lastPacketSequence =
      BitVec.ofNat 8 (receivedIn trace + lostIn trace)

namespace SequenceSlot.Follows

variable {start slot slot' : SequenceSlot} {trace : List AccountingEvent}

/-- A slot whose counters and last packet stay the same. -/
theorem quiet (h : start.Follows trace slot) (hcounts : slot.stats.Counts slot'.stats 0 0)
    (hhandled : slot'.stats.handled = slot.stats.handled)
    (hlast : slot'.lastPacketSequence = slot.lastPacketSequence) : start.Follows trace slot' where
  totalReceived := by rw [hcounts.totalReceived, h.totalReceived, BitVec.add_zero]
  totalGaps := by rw [hcounts.totalGaps, h.totalGaps, BitVec.add_zero]
  handled := by rw [hhandled, h.handled]
  status hquiet := by simpa using (h.status hquiet).trans hcounts
  distance hcontinues := by rw [hlast, h.distance hcontinues]

/-- A call. -/
theorem check {id : ℕ} {seq : BitVec 8} {r : Receiver} (h : start.Follows trace (r.sequence id)) :
    start.Follows
      (trace ++ [.checked (!(r.sequence id).sequenceInitialized) (r.checkPacketSequence id seq).2
        (r.estimatedLost id seq)])
      ((r.checkPacketSequence id seq).1.sequence id) := by
  have heffect := checkPacketSequence_effect id seq r
  generalize (r.checkPacketSequence id seq).1.sequence id = slot' at heffect ⊢
  generalize (r.checkPacketSequence id seq).2 = result at heffect ⊢
  generalize r.estimatedLost id seq = lost at heffect ⊢
  refine ⟨?_, ?_, ?_, fun hquiet => ?_, fun hcontinues => ?_⟩
  · rw [heffect.counts.totalReceived, h.totalReceived, receivedIn_concat, BitVec.ofNat_add,
      BitVec.add_assoc]
    rfl
  · rw [heffect.counts.totalGaps, h.totalGaps, lostIn_concat, BitVec.ofNat_add, BitVec.add_assoc]
    rfl
  · rw [callsIn_concat, BitVec.ofNat_add, ← BitVec.add_assoc, ← h.handled]
    exact heffect.handled
  · rw [receivedIn_concat, lostIn_concat]
    exact (h.status fun hmem => hquiet (List.mem_append_left _ hmem)).trans heffect.counts
  · have hbefore := h.distance fun e he => hcontinues e (List.mem_append_left _ he)
    obtain ⟨hanchored, hresult⟩ := hcontinues _ (List.mem_append_right _ (List.mem_singleton_self _))
    have hcall := heffect.distance (by simpa using hanchored) hresult
    calc slot'.lastPacketSequence - start.lastPacketSequence
        = ((r.sequence id).lastPacketSequence - start.lastPacketSequence) +
            (slot'.lastPacketSequence - (r.sequence id).lastPacketSequence) := by bv_omega
      _ = BitVec.ofNat 8 (receivedIn trace + lostIn trace + (result.received + lost)) := by
          rw [hbefore, hcall, BitVec.ofNat_add (receivedIn trace + lostIn trace)]
      _ = _ := by
          rw [receivedIn_concat, lostIn_concat]
          exact congrArg _ (by simp only [AccountingEvent.received, AccountingEvent.lost]; omega)

/-- A status packet clears the per-status counters and nothing else. -/
theorem report {id : ℕ} {r : Receiver} (h : start.Follows trace (r.sequence id)) :
    start.Follows (trace ++ [.reported]) ((r.forwardStatus id).sequence id) := by
  rw [forwardStatus, sequence_withSequence]
  refine ⟨?_, ?_, ?_, fun hquiet => ?_, fun hcontinues => ?_⟩
  · rw [receivedIn_concat]
    exact h.totalReceived
  · rw [lostIn_concat]
    exact h.totalGaps
  · rw [callsIn_concat]
    exact h.handled
  · exact absurd (List.mem_append_right _ (List.mem_singleton_self _)) hquiet
  · rw [receivedIn_concat, lostIn_concat]
    exact h.distance fun e he => hcontinues e (List.mem_append_left _ he)

end SequenceSlot.Follows

/-- Every run of the accounting follows the slot it started from. -/
theorem accountingSystem_follows {id : ℕ} {r r' : Receiver} {trace : List AccountingEvent}
    (h : (accountingSystem id r).Run trace r') :
    (r.sequence id).Follows trace (r'.sequence id) := by
  refine h.history_invariant
    (P := fun trace s => (r.sequence id).Follows trace (s.sequence id)) ?_ ?_
  · exact ⟨by simp [receivedIn, accountingSystem], by simp [lostIn, accountingSystem],
      by simp [callsIn, accountingSystem], fun _ => .refl _,
      fun _ => by simp [receivedIn, lostIn, accountingSystem]⟩
  · intro trace s op s' es hs _ htaken
    cases op with
    | check seq =>
      obtain ⟨rfl, rfl⟩ := Prod.mk.inj (Option.some.inj htaken)
      exact hs.check
    | report =>
      obtain ⟨rfl, rfl⟩ := Prod.mk.inj (Option.some.inj htaken)
      exact hs.report
    | pingRestart =>
      obtain ⟨rfl, rfl⟩ := Prod.mk.inj (Option.some.inj htaken)
      rw [List.append_nil, reanchorSequence, sequence_fenceTracker, sequence_withSequence]
      exact hs.quiet ⟨by simp, by simp, by simp, by simp⟩ rfl rfl
    | discontinuity =>
      obtain ⟨rfl, rfl⟩ := Prod.mk.inj (Option.some.inj htaken)
      rw [List.append_nil]
      have hstats := discontinuity_frame (·.stats) (fun _ => rfl) s id
      refine hs.quiet ?_ (congrArg PacketStats.handled hstats)
        (discontinuity_frame (·.lastPacketSequence) (fun _ => rfl) s id)
      rw [hstats]
      exact .refl _
    | elsewhere r' =>
      obtain ⟨rfl, rfl⟩ := Prod.mk.inj (Option.some.inj htaken)
      rw [List.append_nil]
      simpa using hs

/-- What a call that returns `result` may do to a slot. -/
structure SequenceSlot.CountsCall (slot slot' : SequenceSlot) (result : SequenceResult) : Prop where
  handled : slot'.stats.handled = slot.stats.handled + 1
  last : slot'.lastPacketSequence ≠ slot.lastPacketSequence →
    result = .normal ∨ result = .gap ∨ result = .restart
  restart : result = .restart → slot'.stats.totalGaps = slot.stats.totalGaps

theorem checkPacketSequence_countsCall (id : ℕ) (seq : BitVec 8) (r : Receiver) :
    (r.sequence id).CountsCall ((r.checkPacketSequence id seq).1.sequence id)
      (r.checkPacketSequence id seq).2 where
  handled := (checkPacketSequence_effect id seq r).handled
  last hmoved := by
    have hlast := (checkPacketSequence_effect id seq r).last
    cases hresult : (r.checkPacketSequence id seq).2 with
    | normal | gap | restart => simp
    | outOfOrder | duplicate =>
      rw [hresult] at hlast
      exact absurd hlast hmoved
  restart hrestart := by
    rw [(checkPacketSequence_effect id seq r).counts.totalGaps, estimatedLost,
      if_neg (by rw [hrestart]; nofun)]
    exact BitVec.add_zero _

/-- **Sequence accounting conserves distance.** Every call is counted exactly once, whatever it
finds; only results 0, 1 and 3 move the last sequence number and a restart adds no gaps. Over any
run from any state, as long as no call restarts or re-anchors the stream, received packets and gaps
grow by the distance of the last sequence number modulo 256; and until the next status packet the
per-status counters grow by the same amounts as the totals. -/
theorem sequence_accounting (id : ℕ) :
    (∀ (r : Receiver) seq, (r.sequence id).CountsCall
      ((r.checkPacketSequence id seq).1.sequence id) (r.checkPacketSequence id seq).2) ∧
    ∀ r trace r', (accountingSystem id r).Run trace r' →
      (r'.sequence id).stats.handled =
        (r.sequence id).stats.handled + BitVec.ofNat 32 (callsIn trace) ∧
      ((∀ e ∈ trace, e.Continues) →
        ((r'.sequence id).stats.accounted - (r.sequence id).stats.accounted).setWidth 8 =
          (r'.sequence id).lastPacketSequence - (r.sequence id).lastPacketSequence) ∧
      (AccountingEvent.reported ∉ trace → (r.sequence id).stats.Counts (r'.sequence id).stats
        (receivedIn trace) (lostIn trace)) := by
  refine ⟨fun r seq => checkPacketSequence_countsCall id seq r, fun r trace r' hrun => ?_⟩
  have hfollows := accountingSystem_follows hrun
  refine ⟨hfollows.handled, fun hcontinues => ?_, hfollows.status⟩
  rw [hfollows.distance hcontinues, PacketStats.accounted, PacketStats.accounted,
    hfollows.totalReceived, hfollows.totalGaps,
    ← BitVec.setWidth_ofNat_of_le (by decide : 8 ≤ 32), BitVec.ofNat_add]
  congr 1
  bv_omega

/-- A tracker that sent packets 10, 11 and 15. -/
theorem sequence_accounting_gap : ∃ r trace r', (accountingSystem 3 r).Run trace r' ∧
    receivedIn trace = 2 ∧ lostIn trace = 3 ∧
    ((r'.sequence 3).stats.accounted - (r.sequence 3).stats.accounted).setWidth 8 =
      (r'.sequence 3).lastPacketSequence - (r.sequence 3).lastPacketSequence ∧
    (r.sequence 3).stats.Counts (r'.sequence 3).stats 2 3 := by
  have hrun := @EventSystem.run_of_exec _ _ _ (accountingSystem 3 (Receiver.init.checkPacketSequence 3 10).1)
    [.check 11, .check 15] _ _ rfl
  obtain ⟨-, hdistance, hstatus⟩ := (sequence_accounting 3).2 _ _ _ hrun
  exact ⟨_, _, _, hrun, by decide, by decide, hdistance (by decide), hstatus (by decide)⟩

end SlimeReceiver
