import Mathlib.Algebra.Ring.Nat
import SlimeReceiver.Library.History
import SlimeReceiver.Receiver.Steps

/-! # Decision evidence is fenced

The decision counters of a tracker count intervals between accepted packets, and nothing that
reaches across a fence, a restart or a rebase.

* **`decisionIntervals`**, **`sequenceIntervals`** — the intervals of a history.
* **`Evidence`** — what the packet path keeps for a tracker, as a view that follows the events.
* **`decision_evidence_fenced`** — the counters of every run. -/

namespace SlimeReceiver

open Receiver

/-! ## What the history says -/

/-- The stream of tracker `i` as the decision evidence sees it: every boundary cuts it. -/
def decisionMark (i : ℕ) : ReceiverEvent → Option (Mark (BitVec 8))
  | .accepted j seq => if j = i then some (.packet seq) else none
  | .restarted j _ | .reanchored j => if j = i then some .cut else none
  | .fenced | .discontinuity | .scheduler (.forgotten _) => some .cut
  | _ => none

/-- The stream as the lifetime statistics see it: it goes on across fences, and a packet that shows
a restart starts it again. -/
def sequenceMark (i : ℕ) : ReceiverEvent → Option (Mark (BitVec 8))
  | .accepted j seq => if j = i then some (.packet seq) else none
  | .restarted j seq => if j = i then some (.start seq) else none
  | .reanchored j | .scheduler (.forgotten j) => if j = i then some .cut else none
  | .discontinuity => some .cut
  | _ => none

/-- The intervals whose endpoints were both accepted with no boundary between them. -/
def decisionIntervals (i : ℕ) (trace : List ReceiverEvent) : List (BitVec 8 × BitVec 8) :=
  intervals (trace.filterMap (decisionMark i))

/-- The intervals between the accepted packets of the sequence, fences or not. -/
def sequenceIntervals (i : ℕ) (trace : List ReceiverEvent) : List (BitVec 8 × BitVec 8) :=
  intervals (trace.filterMap (sequenceMark i))

/-- The sequence numbers missing in some intervals. -/
def gapTotal (l : List (BitVec 8 × BitVec 8)) : ℕ := (l.map fun p => (missing p.1 p.2).toNat).sum

/-- An event that forwards a packet of tracker `i`. -/
def isPacketOf (i : ℕ) : ReceiverEvent → Bool
  | .accepted j _ | .restarted j _ => j == i
  | _ => false

/-- The packets of tracker `i` that were forwarded. -/
def packetsOf (i : ℕ) (trace : List ReceiverEvent) : ℕ := trace.countP (isPacketOf i)

/-- The slot of tracker `i` was reset. -/
def isSlotReset (i : ℕ) : ReceiverEvent → Bool
  | .scheduler (.forgotten j) => j == i
  | _ => false

/-- The statistics of tracker `i` started over. -/
def isStatsReset (i : ℕ) : ReceiverEvent → Bool
  | .statsReset => true
  | e => isSlotReset i e

/-! ## What the packet path keeps -/

/-- What the packet path keeps for a tracker. -/
@[ext] structure Evidence where
  fenced : Bool
  /-- The sequence number accepted last, once there is one. -/
  last : Option (BitVec 8)
  decisionReceived : BitVec 32
  decisionGaps : BitVec 32
  totalReceived : BitVec 32
  totalGaps : BitVec 32

namespace Evidence

/-- The gap in front of an accepted packet. -/
def gapBefore (v : Evidence) (seq : BitVec 8) : BitVec 8 := (v.last.map (missing · seq)).getD 0

/-- The evidence after an accepted packet: behind a fence only the lifetime statistics count it. -/
def accept (v : Evidence) (seq : BitVec 8) : Evidence where
  fenced := false
  last := some seq
  decisionReceived := if v.fenced then v.decisionReceived else v.decisionReceived + 1
  decisionGaps :=
    if v.fenced then v.decisionGaps else v.decisionGaps + (v.gapBefore seq).zeroExtend 32
  totalReceived := v.totalReceived + 1
  totalGaps := v.totalGaps + (v.gapBefore seq).zeroExtend 32

/-- The evidence of a slot after its reset. -/
def zero : Evidence where
  fenced := true
  last := none
  decisionReceived := 0
  decisionGaps := 0
  totalReceived := 0
  totalGaps := 0

/-- What an event does to the evidence of tracker `i`. -/
def follow (i : ℕ) (v : Evidence) : ReceiverEvent → Evidence
  | .accepted j seq => if j = i then v.accept seq else v
  | .restarted j seq =>
    if j = i then { v with fenced := true, last := some seq, totalReceived := v.totalReceived + 1 }
    else v
  | .reanchored j => if j = i then { v with fenced := true, last := none } else v
  | .fenced => { v with fenced := true }
  | .discontinuity => { v with fenced := true, last := none }
  | .statsReset => { v with totalReceived := 0, totalGaps := 0 }
  | .scheduler (.forgotten j) => if j = i then zero else { v with fenced := true }
  | _ => v

theorem followsOnlyResets (i : ℕ) : FollowsOnlyResets (follow i) := by
  intro v e he
  cases e with
  | forgotten id => exact absurd rfl (he id)
  | _ => rfl

end Evidence

namespace Receiver

/-- The evidence of tracker `i`. -/
def evidence (i : ℕ) (r : Receiver) : Evidence where
  fenced := hasBit r.decisionFenceMask i
  last := (r.sequence i).anchor
  decisionReceived := (r.sequence i).decisionReceived
  decisionGaps := (r.sequence i).decisionGaps
  totalReceived := (r.sequence i).stats.totalReceived
  totalGaps := (r.sequence i).stats.totalGaps

variable {i j : ℕ} {seq : BitVec 8} {r : Receiver}

theorem evidence_withSequence_of_ne (slot : SequenceSlot) (h : j ≠ i) :
    (r.withSequence j slot).evidence i = r.evidence i := by
  simp [evidence, withSequence, Function.update_of_ne (Ne.symm h)]

theorem evidence_decisionAccept_of_ne (gaps : BitVec 8) (h : j ≠ i) :
    (r.decisionAccept j gaps).evidence i = r.evidence i := by
  unfold decisionAccept
  split
  · simp [evidence, h]
  · simp [evidence, Function.update_of_ne (Ne.symm h)]

/-- Packets of other trackers leave the evidence of a tracker alone. -/
theorem evidence_checkPacketSequence_of_ne (h : j ≠ i) :
    (r.checkPacketSequence j seq).1.evidence i = r.evidence i := by
  have houtcome := checkPacketSequence_classification j seq r
  generalize r.checkPacketSequence j seq = outcome at houtcome ⊢
  cases houtcome with
  | accepted slot gaps =>
    rw [evidence_decisionAccept_of_ne gaps h, evidence_withSequence_of_ne slot h]
  | restarted slot =>
    rw [← evidence_withSequence_of_ne (r := r) slot h]
    simp [fenceTracker, evidence, h]
  | dropped => exact evidence_withSequence_of_ne _ h

/-- The first packet behind a fence only takes the fence away. -/
theorem evidence_decisionAccept (gaps : BitVec 8) : (r.decisionAccept i gaps).evidence i =
    { r.evidence i with
      fenced := false
      decisionReceived := if (r.evidence i).fenced then (r.evidence i).decisionReceived
        else (r.evidence i).decisionReceived + 1
      decisionGaps := if (r.evidence i).fenced then (r.evidence i).decisionGaps
        else (r.evidence i).decisionGaps + gaps.zeroExtend 32 } := by
  unfold decisionAccept
  split
  case isTrue hfenced => simp [evidence, hfenced]
  case isFalse hfree =>
    simp [evidence, hfree]
    rfl

theorem evidence_withSequence (slot : SequenceSlot) : (r.withSequence i slot).evidence i =
    { fenced := hasBit r.decisionFenceMask i
      last := slot.anchor
      decisionReceived := slot.decisionReceived
      decisionGaps := slot.decisionGaps
      totalReceived := slot.stats.totalReceived
      totalGaps := slot.stats.totalGaps } := by
  simp only [evidence, withSequence, Function.update_self]

theorem evidence_withSequence_of_forwards {slot : SequenceSlot} {gaps : BitVec 8}
    (h : (r.sequence i).Forwards slot seq gaps) : (r.withSequence i slot).evidence i =
      { r.evidence i with
        last := some seq
        totalReceived := (r.evidence i).totalReceived + 1
        totalGaps := (r.evidence i).totalGaps + gaps.zeroExtend 32 } := by
  rw [evidence_withSequence, h.anchor, h.decisionReceived, h.decisionGaps, h.totalReceived,
    h.totalGaps]
  rfl

/-- An accepted packet is the evidence of `decision_accept` and of the statistics. -/
theorem evidence_accepted {slot : SequenceSlot} {gaps : BitVec 8}
    (hforwards : (r.sequence i).Forwards slot seq gaps)
    (hgaps : gaps = ((r.sequence i).anchor.map (missing · seq)).getD 0) :
    ((r.withSequence i slot).decisionAccept i gaps).evidence i = (r.evidence i).accept seq := by
  rw [evidence_decisionAccept, evidence_withSequence_of_forwards hforwards, hgaps]
  rfl

/-- A packet that shows a restart fences its tracker. -/
theorem evidence_restarted {slot : SequenceSlot} (hi : i < maxTrackers)
    (hforwards : (r.sequence i).Forwards slot seq 0) :
    ((r.withSequence i slot).fenceTracker i).evidence i =
      (r.evidence i).follow i (.restarted i seq) := by
  have hword : i < 32 := hi.trans (by decide)
  simp [Evidence.follow, fenceTracker, withSequence, evidence, hword, hforwards.anchor,
    hforwards.decisionReceived, hforwards.decisionGaps, hforwards.totalReceived,
    hforwards.totalGaps]

/-- A packet changes the evidence of its tracker as its classification says. -/
theorem evidence_checkPacketSequence (hi : i < maxTrackers) :
    (r.checkPacketSequence i seq).1.evidence i =
      (r.evidence i).follow i (r.sequenceEvent i seq) := by
  have houtcome := checkPacketSequence_classification i seq r
  unfold sequenceEvent
  generalize r.checkPacketSequence i seq = outcome at houtcome ⊢
  cases houtcome with
  | accepted slot gaps result hresult hforwards hgaps =>
    have hevent : packetEvent i seq result = .accepted i seq := by
      rcases hresult with rfl | rfl <;> rfl
    rw [hevent, evidence_accepted hforwards hgaps, Evidence.follow, if_pos rfl]
  | restarted slot hforwards => exact evidence_restarted hi hforwards
  | dropped stats result hresult hdrops =>
    have hevent : packetEvent i seq result = .dropped i := by
      rcases hresult with rfl | rfl <;> rfl
    rw [hevent, evidence_withSequence, hdrops.totalReceived, hdrops.totalGaps]
    rfl

/-- What a packet reports concerns its own tracker. -/
theorem follow_packetEvent_of_ne (h : j ≠ i) (result : SequenceResult) (v : Evidence) :
    v.follow i (packetEvent j seq result) = v := by
  cases result with
  | normal | gap | restart => exact if_neg h
  | outOfOrder | duplicate => rfl

end Receiver

/-! ## Every step -/

namespace Receiver

variable {i : ℕ} {r r' : Receiver} {op : ReceiverOp} {es : List ReceiverEvent}

theorem evidence_forwardStatus (j : ℕ) : (r.forwardStatus j).evidence i = r.evidence i := by
  by_cases hj : j = i
  · subst hj
    simp only [forwardStatus, evidence_withSequence]
    rfl
  · exact evidence_withSequence_of_ne _ hj

theorem evidence_forwardData (j : ℕ) (result : SequenceResult) (isStatus : Bool) :
    (r.forwardData j result isStatus).evidence i = r.evidence i := by
  unfold forwardData
  split
  · rfl
  · split <;> split <;> first | rfl | exact evidence_forwardStatus j

theorem evidence_data (hi : i < maxTrackers) (j : ℕ) (seq : BitVec 8) :
    (r.checkPacketSequence j seq).1.evidence i =
      (r.evidence i).follow i (r.sequenceEvent j seq) := by
  by_cases hj : j = i
  · subst hj
    exact evidence_checkPacketSequence hi
  · rw [evidence_checkPacketSequence_of_ne hj, sequenceEvent, follow_packetEvent_of_ne hj]

/-- A reboot shown by a PING starts the received sequence again. -/
theorem evidence_reanchorSequence (hi : i < maxTrackers) (j : ℕ) :
    (r.reanchorSequence j).evidence i = (r.evidence i).follow i (.reanchored j) := by
  have hword : i < 32 := hi.trans (by decide)
  by_cases hj : j = i
  · subst hj
    simp [reanchorSequence, Evidence.follow, fenceTracker, withSequence, evidence, hword,
      SequenceSlot.anchor]
  · simp [reanchorSequence, Evidence.follow, fenceTracker, withSequence, evidence, hj,
      Function.update_of_ne (Ne.symm hj)]

/-- Of the counter's verdicts only a reboot changes the evidence. -/
theorem evidence_trackPing (hi : i < maxTrackers) (p : PingPacket) :
    (r.trackPing p).1.evidence i =
      if (r.ping p.trackerId).verdict p.counter r.tdma.uptime = .restart then
        (r.evidence i).follow i (.reanchored p.trackerId) else r.evidence i := by
  cases hverdict : (r.ping p.trackerId).verdict p.counter r.tdma.uptime with
  | restart =>
    simp only [trackPing, hverdict, if_true]
    rw [recoverTracker_eq, ← evidence_reanchorSequence hi]
    rfl
  | timeout =>
    simp only [trackPing, hverdict, reduceCtorEq, if_false]
    rw [recoverTracker_eq]
    rfl
  | first | duplicate | outOfOrder | progress =>
    simp only [trackPing, hverdict, reduceCtorEq, if_false]
    rfl

theorem evidence_receivePing (hi : i < maxTrackers) (p : PingPacket) :
    (r.receivePing p).evidence i = (r.pingEvents p).foldl (Evidence.follow i) (r.evidence i) := by
  have hpipe : (r.notePipe p).evidence i = r.evidence i := by
    rw [notePipe_eq]
    rfl
  unfold receivePing pingEvents
  by_cases hid : p.trackerId ≥ maxTrackers
  · simp [hid]
  · by_cases hcrc : p.crcValid = true
    · have htime : (r.notePipe p).tdma = r.tdma := by rw [notePipe_eq]
      have htracked := evidence_trackPing (r := r.notePipe p) hi p
      rw [verdict_notePipe, hpipe, htime] at htracked
      have hprocessed : (((r.notePipe p).trackPing p).1.processPing p).evidence i =
          ((r.notePipe p).trackPing p).1.evidence i := by
        rw [processPing_eq]
        rfl
      simp only [hid, hcrc, if_false, Bool.not_true, Bool.false_eq_true, or_false, reduceCtorEq,
        List.foldl_append, foldl_eventIf]
      split <;> simp only [hprocessed, htracked, Evidence.follow, ite_self]
    · simpa [hid, hcrc, noteCrcError, withPing, evidence] using hpipe

theorem hasBit_fenceAll (hi : i < maxTrackers) : hasBit (BitVec.allOnes 32) i = true := by
  rw [hasBit_allOnes]
  exact decide_eq_true (hi.trans (by decide))

/-- Behind a fence over every tracker. -/
theorem evidence_of_fence (hi : i < maxTrackers) (hsequence : r'.sequence = r.sequence)
    (hfence : r'.decisionFenceMask = BitVec.allOnes 32) :
    r'.evidence i = { r.evidence i with fenced := true } := by
  simp only [evidence, hsequence, hfence, hasBit_fenceAll hi]

theorem evidence_resetSlot (hi : i < maxTrackers) (r : Receiver) (j : ℕ) :
    (r.resetSlot j).evidence i = (r.evidence i).follow i (.scheduler (.forgotten j)) := by
  by_cases hj : j = i
  · subst hj
    simp only [Evidence.follow, if_true, resetSlot, dropEvidence, evidence, hasBit_fenceAll hi,
      Function.update_self]
    rfl
  · simp only [Evidence.follow, if_neg hj, resetSlot, dropEvidence, evidence, hasBit_fenceAll hi,
      Function.update_of_ne (Ne.symm hj)]

/-- Statistics go, decision counters stay. -/
theorem evidence_resetAllStats (hi : i < maxTrackers) : r.resetAllStats.evidence i =
    [ReceiverEvent.fenced, .statsReset].foldl (Evidence.follow i) (r.evidence i) := by
  simp only [List.foldl_cons, List.foldl_nil, Evidence.follow, resetAllStats, evidence,
    eachBelow_of_lt hi, esbAutoLossInvalidate, dropEvidence, hasBit_fenceAll hi]
  rfl

/-- A blackout starts every received sequence again. -/
theorem evidence_rxDiscontinuity (hi : i < maxTrackers) :
    r.esbRxDiscontinuity.evidence i = (r.evidence i).follow i .discontinuity := by
  simp only [Evidence.follow, esbRxDiscontinuity, evidence, eachBelow_of_lt hi,
    esbAutoLossInvalidate, dropEvidence, hasBit_fenceAll hi]
  rfl

/-- Only the policy that is turned on fences. -/
theorem evidence_publishAll (hi : i < maxTrackers) (command : AllCommand) (mask : TrackerMask) :
    (r.publishAll command mask).evidence i =
      (r.publishAllEvents command mask).foldl (Evidence.follow i) (r.evidence i) := by
  have hcleared : ∀ (p : ℕ → Bool) (v : Evidence),
      ((trackersWhere p).map ReceiverEvent.graceCleared).foldl (Evidence.follow i) v = v := by
    intro p v
    refine foldl_eq_self (fun e he v => ?_) v
    obtain ⟨j, -, rfl⟩ := List.mem_map.mp he
    rfl
  have hqueued : ∀ v : Evidence, ((r.allQueues mask).map fun j =>
      ReceiverEvent.testQueued j command.flag).foldl (Evidence.follow i) v = v := by
    intro v
    refine foldl_eq_self (fun e he v => ?_) v
    obtain ⟨j, -, rfl⟩ := List.mem_map.mp he
    rfl
  rw [foldl_publishAllEvents, hcleared, hqueued, publishAll_eq]
  cases command with
  | on tps => exact evidence_of_fence hi rfl rfl
  | off => rfl

/-- **The evidence at a step.** It follows what the step reports. -/
theorem evidence_step (hi : i < maxTrackers) (h : ReceiverRel r op r' es) :
    r'.evidence i = es.foldl (Evidence.follow i) (r.evidence i) := by
  have hresets := Evidence.followsOnlyResets i
  cases h with
  | stutter | clearOtaAbort | allGuard | allToken | allScan | allAbort | allRelease | reconcile
  | reconcileRead | womRequest | womCancel | commandQueued | testTargeted => rfl
  | plain _ top t tes hplain hstep =>
    rw [foldl_scheduler_eq_self hresets hstep hplain.not_isRoster]
    rfl
  | lossTick env t tes hstep =>
    rw [foldl_scheduler_eq_self hresets hstep id]
    rfl
  | lossTickRebase env t tes hstep =>
    rw [List.foldl_append, foldl_scheduler_eq_self hresets hstep id]
    exact evidence_of_fence hi rfl rfl
  | pass collecting t tes hstep =>
    rw [foldl_scheduler_eq_self hresets hstep id]
    rfl
  | passPublished collecting t tes p hstep =>
    rw [List.foldl_append, foldl_scheduler_eq_self hresets hstep id]
    exact evidence_of_fence hi rfl rfl
  | roster _ top t tes => exact view_resetSlots hresets (evidence_resetSlot hi) tes _
  | clear written t tes => exact view_resetSlots hresets (evidence_resetSlot hi) tes _
  | resetAllStats => exact evidence_resetAllStats hi
  | data j seq onOwnPipe isStatus =>
    have hrest : ∀ e ∈ r.observeEvents onOwnPipe j ++ eventIf
        ((r.checkPacketSequence j seq).2 = .restart ∧ r.testAll.stateValid)
        (.graceArmed j r.tdma.uptime), ∀ v : Evidence, v.follow i e = v := by
      intro e he
      rcases List.mem_append.mp he with he | he
      · rw [of_mem_observeEvents he]
        exact fun _ => rfl
      · rw [(mem_eventIf.mp he).2]
        exact fun _ => rfl
    have hobserved : ((r.checkPacketSequence j seq).1.observe onOwnPipe j .data).evidence i =
        (r.checkPacketSequence j seq).1.evidence i := by
      unfold observe
      split <;> rfl
    rw [evidence_forwardData, hobserved, List.foldl_cons, foldl_eq_self hrest]
    exact evidence_data hi j seq
  | ackPing env p =>
    rw [ackPing_eq]
    cases (r.ackPing env p).2 <;> rfl
  | ping p =>
    have hobserve : ∀ e ∈ r.observeEvents (p.crcValid && p.onOwnPipe) p.trackerId,
        ∀ v : Evidence, v.follow i e = v := by
      intro e he
      rw [of_mem_observeEvents he]
      exact fun _ => rfl
    rw [List.foldl_append, foldl_eq_self hobserve, ← evidence_receivePing hi]
    unfold observe
    split <;> rfl
  | autoLossFence | autoLossInvalidate => exact evidence_of_fence hi rfl rfl
  | rxDiscontinuity => exact evidence_rxDiscontinuity hi
  | womResult id token =>
    rw [womResult_eq]
    cases (r.womResult id token).2 <;> rfl
  | allPublish command token mask => exact evidence_publishAll hi command mask
  | noteLayout oldMask newMask activeCount now =>
    rw [foldl_eq_self, testAllNoteLayout_eq]
    · rfl
    · intro e he
      rcases of_mem_noteLayoutEvents he with ⟨j, rfl⟩ | ⟨j, rfl⟩ <;> exact fun _ => rfl
  | updateEffective activeCount now =>
    rw [foldl_eq_self, testAllUpdateEffective_eq]
    · rfl
    · intro e he
      rcases of_mem_updateEffectiveEvents he with ⟨j, rfl⟩ | ⟨j, rfl⟩ <;> exact fun _ => rfl
  | reconcilePublish now enabled =>
    rw [foldl_eq_self, testAllReconcile_eq]
    · rfl
    · intro e he
      rcases of_mem_reconcileEvents he with ⟨j, rfl⟩ | ⟨j, rfl⟩ <;> exact fun _ => rfl

/-- The evidence of a tracker follows the events. -/
def evidenceView (hi : i < maxTrackers) : EventSystem.View receiverSystem Evidence where
  view := evidence i
  follow := Evidence.follow i
  step _ _ _ _ h := evidence_step hi (receiverStep_rel h)

end Receiver

/-! ## What the evidence counts -/

namespace Evidence

variable {i : ℕ} {trace : List ReceiverEvent} {e : ReceiverEvent}

/-- The interval an event closes in the lifetime statistics. -/
def newest (i : ℕ) (v : Evidence) : ReceiverEvent → List (BitVec 8 × BitVec 8)
  | .accepted j seq => if j = i then (v.last.map (·, seq)).toList else []
  | _ => []

/-- The interval an event closes in the decision evidence. -/
def newestDecision (i : ℕ) (v : Evidence) (e : ReceiverEvent) : List (BitVec 8 × BitVec 8) :=
  if v.fenced then [] else v.newest i e

/-- The evidence after a history. -/
def ofTrace (i : ℕ) (trace : List ReceiverEvent) : Evidence := trace.foldl (follow i) zero

@[simp] theorem ofTrace_concat (i : ℕ) (trace : List ReceiverEvent) (e : ReceiverEvent) :
    ofTrace i (trace ++ [e]) = (ofTrace i trace).follow i e := by
  rw [ofTrace, List.foldl_append]
  rfl

/-- The anchors of both streams, read off the evidence. -/
structure Anchored (i : ℕ) (trace : List ReceiverEvent) (v : Evidence) : Prop where
  decision : lastAnchor (trace.filterMap (decisionMark i)) = if v.fenced then none else v.last
  sequence : lastAnchor (trace.filterMap (sequenceMark i)) = v.last
  started : v.fenced = false → v.last ≠ none

/-- An event that marks neither stream. -/
theorem Anchored.quiet {v v' : Evidence} (h : Anchored i trace v) (hdecision : decisionMark i e = none)
    (hsequence : sequenceMark i e = none) (hfenced : v'.fenced = v.fenced)
    (hlast : v'.last = v.last) : Anchored i (trace ++ [e]) v' := by
  refine ⟨?_, ?_, ?_⟩
  · rw [filterMap_concat_of_none trace hdecision, h.decision, hfenced, hlast]
  · rw [filterMap_concat_of_none trace hsequence, h.sequence, hlast]
  · rw [hfenced, hlast]
    exact h.started

/-- A fence that the lifetime statistics do not see. -/
theorem Anchored.fence {v : Evidence} (h : Anchored i trace v)
    (hdecision : decisionMark i e = some .cut) (hsequence : sequenceMark i e = none) :
    Anchored i (trace ++ [e]) { v with fenced := true } := by
  refine ⟨?_, ?_, nofun⟩
  · rw [lastAnchor_filterMap trace hdecision]
    rfl
  · rw [filterMap_concat_of_none trace hsequence]
    exact h.sequence

/-- A boundary at which the received sequence starts over as well. -/
theorem Anchored.cut {v' : Evidence} {m : Mark (BitVec 8)} (hdecision : decisionMark i e = some .cut)
    (hsequence : sequenceMark i e = some m) (hfenced : v'.fenced = true)
    (hlast : v'.last = m.anchor) : Anchored i (trace ++ [e]) v' := by
  refine ⟨?_, ?_, fun hfree => ?_⟩
  · rw [lastAnchor_filterMap trace hdecision, if_pos hfenced]
    rfl
  · rw [lastAnchor_filterMap trace hsequence, hlast]
  · rw [hfenced] at hfree
    cases hfree

/-- A packet of the tracker is the anchor of both streams. -/
theorem Anchored.packet (v : Evidence) (seq : BitVec 8) :
    Anchored i (trace ++ [ReceiverEvent.accepted i seq]) (v.accept seq) := by
  refine ⟨?_, ?_, fun _ => nofun⟩
  · rw [lastAnchor_filterMap trace (show decisionMark i (.accepted i seq) = _ from if_pos rfl)]
    rfl
  · rw [lastAnchor_filterMap trace (show sequenceMark i (.accepted i seq) = _ from if_pos rfl)]
    rfl

theorem Anchored.follow {v : Evidence} (h : Anchored i trace v) (e : ReceiverEvent) :
    Anchored i (trace ++ [e]) (v.follow i e) := by
  cases e with
  | accepted j seq =>
    by_cases hj : j = i
    · subst hj
      rw [Evidence.follow, if_pos rfl]
      exact .packet v seq
    · rw [Evidence.follow, if_neg hj]
      exact h.quiet (if_neg hj) (if_neg hj) rfl rfl
  | restarted j seq =>
    by_cases hj : j = i
    · rw [Evidence.follow, if_pos hj]
      exact .cut (if_pos hj) (if_pos hj) rfl rfl
    · rw [Evidence.follow, if_neg hj]
      exact h.quiet (if_neg hj) (if_neg hj) rfl rfl
  | reanchored j =>
    by_cases hj : j = i
    · rw [Evidence.follow, if_pos hj]
      exact .cut (if_pos hj) (if_pos hj) rfl rfl
    · rw [Evidence.follow, if_neg hj]
      exact h.quiet (if_neg hj) (if_neg hj) rfl rfl
  | fenced => exact h.fence rfl rfl
  | discontinuity => exact .cut rfl rfl rfl rfl
  | scheduler e =>
    cases e with
    | forgotten j =>
      by_cases hj : j = i
      · rw [Evidence.follow, if_pos hj]
        exact .cut rfl (if_pos hj) rfl rfl
      · rw [Evidence.follow, if_neg hj]
        exact h.fence rfl (if_neg hj)
    | _ => exact h.quiet rfl rfl rfl rfl
  | _ => exact h.quiet rfl rfl rfl rfl

theorem anchored_ofTrace (i : ℕ) (trace : List ReceiverEvent) :
    Anchored i trace (ofTrace i trace) := by
  induction trace using List.reverseRecOn with
  | nil => exact ⟨rfl, rfl, nofun⟩
  | append_singleton trace e ih =>
    rw [ofTrace_concat]
    exact ih.follow e

theorem sequenceMark_packet {b : BitVec 8} :
    sequenceMark i e = some (.packet b) ↔ e = .accepted i b := by
  constructor
  · intro h
    unfold sequenceMark at h
    split at h <;> simp_all
  · rintro rfl
    exact if_pos rfl

theorem decisionMark_packet {b : BitVec 8} :
    decisionMark i e = some (.packet b) ↔ e = .accepted i b := by
  constructor
  · intro h
    unfold decisionMark at h
    split at h <;> simp_all
  · rintro rfl
    exact if_pos rfl

theorem newest_of_not_packet {v : Evidence} (h : ∀ b, e ≠ .accepted i b) : v.newest i e = [] := by
  unfold newest
  split
  case h_1 j seq =>
    refine if_neg fun hj => ?_
    exact h seq (by rw [hj])
  case h_2 => rfl

/-- A history and the interval its last event closes in the lifetime statistics. -/
theorem sequenceIntervals_concat (i : ℕ) (trace : List ReceiverEvent) (e : ReceiverEvent) :
    sequenceIntervals i (trace ++ [e]) =
      sequenceIntervals i trace ++ (ofTrace i trace).newest i e := by
  by_cases hpacket : ∃ b, e = .accepted i b
  · obtain ⟨b, rfl⟩ := hpacket
    rw [sequenceIntervals, intervals_filterMap_packet trace (sequenceMark_packet.mpr rfl),
      (anchored_ofTrace i trace).sequence, newest, if_pos rfl]
    rfl
  · have hother : ∀ b, e ≠ .accepted i b := fun b hb => hpacket ⟨b, hb⟩
    rw [newest_of_not_packet hother, List.append_nil]
    exact intervals_filterMap_of_not_packet trace fun b hb => hother b (sequenceMark_packet.mp hb)

/-- A history and the interval its last event closes in the decision evidence. -/
theorem decisionIntervals_concat (i : ℕ) (trace : List ReceiverEvent) (e : ReceiverEvent) :
    decisionIntervals i (trace ++ [e]) =
      decisionIntervals i trace ++ (ofTrace i trace).newestDecision i e := by
  by_cases hpacket : ∃ b, e = .accepted i b
  · obtain ⟨b, rfl⟩ := hpacket
    rw [decisionIntervals, intervals_filterMap_packet trace (decisionMark_packet.mpr rfl),
      (anchored_ofTrace i trace).decision, newestDecision, newest, if_pos rfl]
    split <;> rfl
  · have hother : ∀ b, e ≠ .accepted i b := fun b hb => hpacket ⟨b, hb⟩
    rw [newestDecision, newest_of_not_packet hother, ite_self, List.append_nil]
    exact intervals_filterMap_of_not_packet trace fun b hb => hother b (decisionMark_packet.mp hb)

/-! ### The counters -/

theorem gapTotal_append (l l' : List (BitVec 8 × BitVec 8)) :
    gapTotal (l ++ l') = gapTotal l + gapTotal l' := by
  rw [gapTotal, List.map_append, List.sum_append]
  rfl

theorem packetsOf_concat (i : ℕ) (trace : List ReceiverEvent) (e : ReceiverEvent) :
    packetsOf i (trace ++ [e]) = packetsOf i trace + (if isPacketOf i e then 1 else 0) := by
  rw [packetsOf, List.countP_append, List.countP_singleton]
  rfl

theorem cumulative_decisionReceived (i : ℕ) :
    Cumulative fun trace => (decisionIntervals i trace).length := by
  intro trace e
  simp only [decisionIntervals_concat, List.length_append]
  omega

theorem cumulative_decisionGaps (i : ℕ) :
    Cumulative fun trace => gapTotal (decisionIntervals i trace) := by
  intro trace e
  simp only [decisionIntervals_concat, gapTotal_append]
  omega

theorem cumulative_packetsOf (i : ℕ) : Cumulative (packetsOf i) := by
  intro trace e
  rw [packetsOf_concat]
  omega

theorem cumulative_totalGaps (i : ℕ) :
    Cumulative fun trace => gapTotal (sequenceIntervals i trace) := by
  intro trace e
  simp only [sequenceIntervals_concat, gapTotal_append]
  omega

/-- No event closes more decision intervals than it forwards packets. -/
theorem decisionReceived_growsWithin (i : ℕ) :
    GrowsWithin (fun trace => (decisionIntervals i trace).length) (packetsOf i) := by
  intro trace e
  have hone : ((ofTrace i trace).newestDecision i e).length ≤ if isPacketOf i e then 1 else 0 := by
    by_cases hpacket : ∃ b, e = .accepted i b
    · obtain ⟨b, rfl⟩ := hpacket
      rw [newestDecision, newest, if_pos rfl, isPacketOf, beq_self_eq_true, if_pos rfl]
      split
      · exact Nat.zero_le 1
      · cases (ofTrace i trace).last <;> simp
    · rw [newestDecision, newest_of_not_packet fun b hb => hpacket ⟨b, hb⟩, ite_self]
      exact Nat.zero_le _
  rw [packetsOf_concat]
  simp only [decisionIntervals_concat, List.length_append]
  omega

/-- The decision evidence counts no gap the lifetime statistics do not count. -/
theorem decisionGaps_growsWithin (i : ℕ) :
    GrowsWithin (fun trace => gapTotal (decisionIntervals i trace))
      fun trace => gapTotal (sequenceIntervals i trace) := by
  intro trace e
  have hpart : gapTotal ((ofTrace i trace).newestDecision i e) ≤
      gapTotal ((ofTrace i trace).newest i e) := by
    unfold newestDecision
    split
    · exact Nat.zero_le _
    · exact le_refl _
  simp only [decisionIntervals_concat, sequenceIntervals_concat, gapTotal_append]
  omega

/-- The counters of the evidence, as gains of the counts since the resets. -/
structure Counts (i : ℕ) (trace : List ReceiverEvent) (v : Evidence) : Prop where
  decisionReceived : v.decisionReceived = BitVec.ofNat 32
    (gainSince (isSlotReset i) (fun trace => (decisionIntervals i trace).length) trace)
  decisionGaps : v.decisionGaps = BitVec.ofNat 32
    (gainSince (isSlotReset i) (fun trace => gapTotal (decisionIntervals i trace)) trace)
  totalReceived : v.totalReceived = BitVec.ofNat 32
    (gainSince (isStatsReset i) (packetsOf i) trace)
  totalGaps : v.totalGaps = BitVec.ofNat 32
    (gainSince (isStatsReset i) (fun trace => gapTotal (sequenceIntervals i trace)) trace)

/-- What one event adds to the counters it does not reset. -/
structure Adds (i : ℕ) (v : Evidence) (e : ReceiverEvent) : Prop where
  decisionReceived : isSlotReset i e = false → (v.follow i e).decisionReceived =
    v.decisionReceived + BitVec.ofNat 32 (v.newestDecision i e).length
  decisionGaps : isSlotReset i e = false → (v.follow i e).decisionGaps =
    v.decisionGaps + BitVec.ofNat 32 (gapTotal (v.newestDecision i e))
  totalReceived : isStatsReset i e = false → (v.follow i e).totalReceived =
    v.totalReceived + BitVec.ofNat 32 (if isPacketOf i e then 1 else 0)
  totalGaps : isStatsReset i e = false → (v.follow i e).totalGaps =
    v.totalGaps + BitVec.ofNat 32 (gapTotal (v.newest i e))

/-- The gap of a packet is what its interval is missing. -/
theorem gapBefore_eq (v : Evidence) (seq : BitVec 8) : (v.gapBefore seq).zeroExtend 32 =
    BitVec.ofNat 32 (gapTotal (v.last.map (·, seq)).toList) := by
  unfold gapBefore
  cases v.last with
  | none => rfl
  | some a => simp [gapTotal, BitVec.ofNat_toNat]

theorem adds_accepted {v : Evidence} (hstarted : v.fenced = false → v.last ≠ none)
    (seq : BitVec 8) : v.Adds i (.accepted i seq) := by
  have hnewest : v.newest i (.accepted i seq) = (v.last.map (·, seq)).toList := if_pos rfl
  have hfollow : v.follow i (.accepted i seq) = v.accept seq := if_pos rfl
  refine ⟨fun _ => ?_, fun _ => ?_, fun _ => ?_, fun _ => ?_⟩
  · rw [hfollow, newestDecision, hnewest, accept]
    by_cases hfenced : v.fenced = true
    · simp [hfenced]
    · obtain ⟨a, ha⟩ := Option.ne_none_iff_exists'.mp (hstarted (by simpa using hfenced))
      simp [hfenced, ha]
  · rw [hfollow, newestDecision, hnewest, accept]
    by_cases hfenced : v.fenced = true
    · simp [hfenced, gapTotal]
    · simp only [hfenced, Bool.false_eq_true, if_false, gapBefore_eq]
  · rw [hfollow, isPacketOf, beq_self_eq_true]
    rfl
  · rw [hfollow, hnewest, accept, gapBefore_eq]

theorem adds_restarted (v : Evidence) (seq : BitVec 8) : v.Adds i (.restarted i seq) := by
  have hfollow : v.follow i (.restarted i seq) =
      { v with fenced := true, last := some seq, totalReceived := v.totalReceived + 1 } := if_pos rfl
  refine ⟨fun _ => ?_, fun _ => ?_, fun _ => ?_, fun _ => ?_⟩
  · rw [hfollow, newestDecision]
    simp [newest]
  · rw [hfollow, newestDecision]
    simp [newest, gapTotal]
  · rw [hfollow, isPacketOf, beq_self_eq_true]
    rfl
  · rw [hfollow]
    simp [newest, gapTotal]

/-- An event without a packet of the tracker leaves every counter it does not reset. -/
theorem adds_of_not_packet {v : Evidence} (hpacket : isPacketOf i e = false) : v.Adds i e := by
  have haccepted : ∀ b, e ≠ .accepted i b := by
    rintro b rfl
    simp [isPacketOf] at hpacket
  have hnewest : v.newest i e = [] := newest_of_not_packet haccepted
  have hdecision : v.newestDecision i e = [] := by rw [newestDecision, hnewest, ite_self]
  have hcounters : (isSlotReset i e = false → (v.follow i e).decisionReceived = v.decisionReceived ∧
      (v.follow i e).decisionGaps = v.decisionGaps) ∧ (isStatsReset i e = false →
        (v.follow i e).totalReceived = v.totalReceived ∧ (v.follow i e).totalGaps = v.totalGaps) := by
    cases e with
    | accepted j | restarted j =>
      have hj : j ≠ i := by simpa [isPacketOf] using hpacket
      rw [follow, if_neg hj]
      exact ⟨fun _ => ⟨rfl, rfl⟩, fun _ => ⟨rfl, rfl⟩⟩
    | reanchored j =>
      rw [follow]
      split <;> exact ⟨fun _ => ⟨rfl, rfl⟩, fun _ => ⟨rfl, rfl⟩⟩
    | statsReset => exact ⟨fun _ => ⟨rfl, rfl⟩, nofun⟩
    | scheduler te =>
      cases te with
      | forgotten j =>
        by_cases hj : j = i
        · exact ⟨fun h => by simp [isSlotReset, hj] at h,
            fun h => by simp [isStatsReset, isSlotReset, hj] at h⟩
        · rw [follow, if_neg hj]
          exact ⟨fun _ => ⟨rfl, rfl⟩, fun _ => ⟨rfl, rfl⟩⟩
      | _ => exact ⟨fun _ => ⟨rfl, rfl⟩, fun _ => ⟨rfl, rfl⟩⟩
    | _ => exact ⟨fun _ => ⟨rfl, rfl⟩, fun _ => ⟨rfl, rfl⟩⟩
  refine ⟨fun h => ?_, fun h => ?_, fun h => ?_, fun h => ?_⟩
  · rw [(hcounters.1 h).1, hdecision]
    simp
  · rw [(hcounters.1 h).2, hdecision]
    simp [gapTotal]
  · rw [(hcounters.2 h).1, hpacket]
    simp
  · rw [(hcounters.2 h).2, hnewest]
    simp [gapTotal]

theorem adds {v : Evidence} (hstarted : v.fenced = false → v.last ≠ none) (e : ReceiverEvent) :
    v.Adds i e := by
  cases hpacket : isPacketOf i e with
  | false => exact adds_of_not_packet hpacket
  | true =>
    cases e with
    | accepted j seq =>
      obtain rfl : j = i := by simpa [isPacketOf] using hpacket
      exact adds_accepted hstarted seq
    | restarted j seq =>
      obtain rfl : j = i := by simpa [isPacketOf] using hpacket
      exact adds_restarted v seq
    | _ => cases hpacket

/-- What a reset leaves of the counters. -/
theorem follow_slotReset {v : Evidence} (h : isSlotReset i e = true) : v.follow i e = zero := by
  unfold isSlotReset at h
  split at h
  · exact if_pos (by simpa using h)
  · cases h

theorem follow_statsReset {v : Evidence} (h : isStatsReset i e = true) :
    (v.follow i e).totalReceived = 0 ∧ (v.follow i e).totalGaps = 0 := by
  unfold isStatsReset at h
  split at h
  · exact ⟨rfl, rfl⟩
  · rw [follow_slotReset h]
    exact ⟨rfl, rfl⟩

/-- A counter that a reset zeroes and every other event raises by `n` keeps counting. -/
theorem counts_concat {p : ReceiverEvent → Bool} {f : List ReceiverEvent → ℕ} (hf : Cumulative f)
    {c c' : BitVec 32} {n : ℕ} (hn : f (trace ++ [e]) = f trace + n)
    (hc : c = BitVec.ofNat 32 (gainSince p f trace)) (hreset : p e = true → c' = 0)
    (hadd : p e = false → c' = c + BitVec.ofNat 32 n) :
    c' = BitVec.ofNat 32 (gainSince p f (trace ++ [e])) := by
  cases hp : p e with
  | true =>
    rw [hreset hp, gainSince_of_pos hp]
    rfl
  | false => rw [hadd hp, gainSince_of_neg hf hp hn, hc, BitVec.ofNat_add]

theorem counts_ofTrace (i : ℕ) (trace : List ReceiverEvent) : Counts i trace (ofTrace i trace) := by
  induction trace using List.reverseRecOn with
  | nil => exact ⟨rfl, rfl, rfl, rfl⟩
  | append_singleton trace e ih =>
    have hadds := adds (i := i) (anchored_ofTrace i trace).started e
    rw [ofTrace_concat]
    refine ⟨?_, ?_, ?_, ?_⟩
    · refine counts_concat (cumulative_decisionReceived i) ?_ ih.decisionReceived
        (fun h => by rw [follow_slotReset h]; rfl) hadds.decisionReceived
      simp only [decisionIntervals_concat, List.length_append]
    · refine counts_concat (cumulative_decisionGaps i) ?_ ih.decisionGaps
        (fun h => by rw [follow_slotReset h]; rfl) hadds.decisionGaps
      simp only [decisionIntervals_concat, gapTotal_append]
    · exact counts_concat (cumulative_packetsOf i) (packetsOf_concat i trace e) ih.totalReceived
        (fun h => (follow_statsReset h).1) hadds.totalReceived
    · refine counts_concat (cumulative_totalGaps i) ?_ ih.totalGaps
        (fun h => (follow_statsReset h).2) hadds.totalGaps
      simp only [sequenceIntervals_concat, gapTotal_append]

end Evidence

open Evidence in
/-- **Decision evidence is fenced.** In every run the decision counters of a tracker count exactly
the intervals between packets accepted one after the other with no boundary between them, since the
reset of its slot; the lifetime counters count every forwarded packet and every interval of the
sequence since the statistics were reset; and over any stretch of the run the former grow by at most
as much as the latter. -/
theorem decision_evidence_fenced {trace : List ReceiverEvent} {r : Receiver}
    (h : receiverSystem.Run trace r) {i : ℕ} (hi : i < maxTrackers) :
    ((r.sequence i).decisionReceived = BitVec.ofNat 32
        (gainSince (isSlotReset i) (fun t => (decisionIntervals i t).length) trace) ∧
      (r.sequence i).decisionGaps = BitVec.ofNat 32
        (gainSince (isSlotReset i) (fun t => gapTotal (decisionIntervals i t)) trace)) ∧
    ((r.sequence i).stats.totalReceived = BitVec.ofNat 32
        (gainSince (isStatsReset i) (packetsOf i) trace) ∧
      (r.sequence i).stats.totalGaps = BitVec.ofNat 32
        (gainSince (isStatsReset i) (fun t => gapTotal (sequenceIntervals i t)) trace)) ∧
    ∀ earlier later, trace = earlier ++ later →
      (decisionIntervals i trace).length - (decisionIntervals i earlier).length ≤
        packetsOf i trace - packetsOf i earlier ∧
      gapTotal (decisionIntervals i trace) - gapTotal (decisionIntervals i earlier) ≤
        gapTotal (sequenceIntervals i trace) - gapTotal (sequenceIntervals i earlier) := by
  have hinit : (evidence i Receiver.init) = Evidence.zero := by
    simp only [evidence, Receiver.init, hasBit_fenceAll hi]
    rfl
  have hview : r.evidence i = ofTrace i trace := by
    have hrun := (evidenceView hi).run h
    rw [ofTrace, ← hinit]
    exact hrun
  have hcounts := counts_ofTrace i trace
  rw [← hview] at hcounts
  refine ⟨⟨hcounts.decisionReceived, hcounts.decisionGaps⟩,
    ⟨hcounts.totalReceived, hcounts.totalGaps⟩, ?_⟩
  rintro earlier later rfl
  have hreceived := (decisionReceived_growsWithin i).append earlier later
  have hgaps := (decisionGaps_growsWithin i).append earlier later
  exact ⟨by omega, by omega⟩

/-- A fence in the middle of a stream, a duplicate behind it. -/
def fencedStream : List ReceiverOp :=
  [.restoreStore 1 fun i => i + 1, .data 0 5 true false, .data 0 6 true false,
    .data 0 9 true false, .autoLossFence, .data 0 12 true false, .data 0 12 true false,
    .data 0 13 true false]

/-- Of the four intervals of `fencedStream` three are decision evidence. -/
theorem decision_evidence_fenced_stream : ∃ trace r, receiverSystem.Run trace r ∧
    decisionIntervals 0 trace = [(5, 6), (6, 9), (12, 13)] ∧
    sequenceIntervals 0 trace = [(5, 6), (6, 9), (9, 12), (12, 13)] ∧
    (r.sequence 0).decisionReceived = BitVec.ofNat 32
      (gainSince (isSlotReset 0) (fun t => (decisionIntervals 0 t).length) trace) ∧
    (r.sequence 0).decisionReceived = 3 ∧ (r.sequence 0).decisionGaps = 2 := by
  obtain ⟨trace, r, hrun, htest⟩ := receiverSystem.exists_run_of_replay fencedStream
    (fun trace r => decide (decisionIntervals 0 trace = [(5, 6), (6, 9), (12, 13)] ∧
      sequenceIntervals 0 trace = [(5, 6), (6, 9), (9, 12), (12, 13)] ∧
      (r.sequence 0).decisionReceived = 3 ∧ (r.sequence 0).decisionGaps = 2)) (by decide +kernel)
  rw [decide_eq_true_eq] at htest
  obtain ⟨hdecision, hsequence, hreceived, hgaps⟩ := htest
  have hlaw := decision_evidence_fenced hrun (i := 0) (by decide)
  exact ⟨trace, r, hrun, hdecision, hsequence, hlaw.1.1, hreceived, hgaps⟩

end SlimeReceiver
