import SlimeReceiver.Library.WrappingClock
import SlimeReceiver.Receiver.Steps

/-! # The join grace of the test-all policy

A tracker that joins, restarts or gets a new rate is left alone for `TEST_ALL_JOIN_CONFIG_GRACE_MS`.
The end of the grace is a 32-bit reading compared by its signed distance, and 0 stands for no grace.

* **`lastGrace`** — when the grace of a tracker was armed last, read off the history.
* **`readyAfterView`** — the stored reading follows the events.
* **`join_grace`** — when exactly a withheld flag means a running grace. -/

namespace SlimeReceiver

open Receiver

/-! ## What the history says -/

/-- When the grace of tracker `i` was armed, unless it was dropped since. -/
def graceEvent (i : ℕ) (armed : Option ℕ) : ReceiverEvent → Option ℕ
  | .graceArmed j now => if j = i then some now else armed
  | .graceCleared j | .scheduler (.forgotten j) => if j = i then none else armed
  | _ => armed

/-- When the grace of tracker `i` was armed last, if it was not dropped since. -/
def lastGrace (i : ℕ) (trace : List ReceiverEvent) : Option ℕ := trace.foldl (graceEvent i) none

/-- The grace of tracker `i` was armed less than `TEST_ALL_JOIN_CONFIG_GRACE_MS` before `now`. -/
def GraceRuns (i : ℕ) (trace : List ReceiverEvent) (now : ℕ) : Prop :=
  ∃ armed, lastGrace i trace = some armed ∧ now < armed + testAllJoinConfigGraceMs

/-- When the grace of tracker `i` ends; a tracker without one has the start of the clock. -/
def graceEnd (i : ℕ) (trace : List ReceiverEvent) : ℕ :=
  ((lastGrace i trace).map (· + testAllJoinConfigGraceMs)).getD 0

/-- A grace runs exactly until it ends. -/
theorem graceRuns_iff {i : ℕ} {trace : List ReceiverEvent} {now : ℕ} :
    GraceRuns i trace now ↔ now < graceEnd i trace := by
  unfold GraceRuns graceEnd
  cases lastGrace i trace <;> simp

/-! ## The stored reading -/

/-- The reading stored for a grace. -/
def graceReading (armed : Option ℕ) : BitVec 32 := (armed.map graceDeadline).getD 0

/-- The reading stored is that of the end of the grace. -/
theorem graceReading_lastGrace (i : ℕ) (trace : List ReceiverEvent) :
    graceReading (lastGrace i trace) = stamp (graceEnd i trace) := by
  unfold graceEnd
  cases lastGrace i trace with
  | none => rfl
  | some armed => exact (stamp_add armed testAllJoinConfigGraceMs).symm

/-- The reading stored for tracker `i` after an event. -/
def followGrace (i : ℕ) (ready : BitVec 32) : ReceiverEvent → BitVec 32
  | .graceArmed j now => if j = i then graceDeadline now else ready
  | .graceCleared j | .scheduler (.forgotten j) => if j = i then 0 else ready
  | _ => ready

theorem followGrace_followsOnlyResets (i : ℕ) : FollowsOnlyResets (followGrace i) := by
  intro v e he
  cases e with
  | forgotten id => exact absurd rfl (he id)
  | _ => rfl

/-- The stored reading keeps to the history. -/
theorem foldl_followGrace (i : ℕ) (trace : List ReceiverEvent) :
    trace.foldl (followGrace i) 0 = graceReading (lastGrace i trace) := by
  have hevent : ∀ armed e, followGrace i (graceReading armed) e =
      graceReading (graceEvent i armed e) := by
    intro armed e
    cases e with
    | graceArmed j now | graceCleared j =>
      simp only [followGrace, graceEvent]
      split <;> rfl
    | scheduler te =>
      cases te with
      | forgotten j =>
        simp only [followGrace, graceEvent]
        split <;> rfl
      | _ => rfl
    | _ => rfl
  have hfold : ∀ armed, trace.foldl (followGrace i) (graceReading armed) =
      graceReading (trace.foldl (graceEvent i) armed) := by
    induction trace with
    | nil => exact fun _ => rfl
    | cons e trace ih =>
      intro armed
      rw [List.foldl_cons, List.foldl_cons, hevent]
      exact ih _
  exact hfold none

namespace Receiver

variable {i : ℕ} {r r' : Receiver} {op : ReceiverOp} {es : List ReceiverEvent}

/-- The reading stored for tracker `i`. -/
def readyAfter (i : ℕ) (r : Receiver) : BitVec 32 := r.testAll.readyAfterMs i

theorem readyAfter_armGrace (j now : ℕ) :
    (r.armGrace j now).readyAfter i = followGrace i (r.readyAfter i) (.graceArmed j now) := by
  by_cases hj : j = i
  · subst hj
    simp [armGrace, readyAfter, followGrace]
  · simp [armGrace, readyAfter, followGrace, hj, Function.update_of_ne (Ne.symm hj)]

theorem readyAfter_resetSlot (r : Receiver) (j : ℕ) : (r.resetSlot j).readyAfter i =
    followGrace i (r.readyAfter i) (.scheduler (.forgotten j)) := by
  by_cases hj : j = i
  · subst hj
    simp [resetSlot, dropEvidence, readyAfter, followGrace]
  · simp [resetSlot, dropEvidence, readyAfter, followGrace, hj, Function.update_of_ne (Ne.symm hj)]

/-- Arming the grace of each tracker of a mask. -/
theorem foldl_graceArmed (hi : i < maxTrackers) (mask : TrackerMask) (now : ℕ) (v : BitVec 32) :
    ((trackersWhere (hasBit mask)).map fun j => ReceiverEvent.graceArmed j now).foldl
      (followGrace i) v = if hasBit mask i then graceDeadline now else v := by
  rw [foldl_trackersWhere (hasBit mask) (fun j => ReceiverEvent.graceArmed j now) hi
    (fun j hj v => if_neg hj) v, followGrace, if_pos rfl]

/-- New rates change no grace. -/
theorem foldl_rateRefreshed (l : List ℕ) (v : BitVec 32) :
    (l.map ReceiverEvent.rateRefreshed).foldl (followGrace i) v = v := by
  refine foldl_eq_self (fun e he v => ?_) v
  obtain ⟨j, -, rfl⟩ := List.mem_map.mp he
  rfl

theorem readyAfter_noteLayout (hi : i < maxTrackers) (oldMask newMask : TrackerMask) (now : ℕ) :
    (r.testAllNoteLayout oldMask newMask now).readyAfter i =
      (r.noteLayoutEvents oldMask newMask now).foldl (followGrace i) (r.readyAfter i) := by
  unfold testAllNoteLayout noteLayoutEvents
  split
  · rfl
  · have hrates : ∀ v : BitVec 32, (if r.testAll.enabled then
        (trackersWhere (hasBit (newMask &&& ~~~oldMask))).map ReceiverEvent.rateRefreshed
        else []).foldl (followGrace i) v = v := by
      intro v
      split
      · exact foldl_rateRefreshed _ v
      · rfl
    simp only []
    rw [List.foldl_append, foldl_graceArmed hi, hrates]
    simp only [readyAfter, eachBelow_of_lt hi]

theorem readyAfter_updateEffective (hi : i < maxTrackers) (activeCount now : ℕ) :
    (r.testAllUpdateEffective activeCount now).readyAfter i =
      (r.updateEffectiveEvents activeCount now).foldl (followGrace i) (r.readyAfter i) := by
  unfold testAllUpdateEffective updateEffectiveEvents
  by_cases hforce : (!r.testAll.stateValid || !r.testAll.enabled) = true
  · rw [if_pos hforce, if_pos (.inl hforce)]
    rfl
  · by_cases hsame : r.testAllEffective activeCount = r.testAll.effectiveTps
    · rw [if_neg hforce, if_pos hsame, if_pos (.inr hsame)]
      rfl
    · rw [if_neg hforce, if_neg hsame, if_neg (by simp [hforce, hsame])]
      simp only []
      rw [List.foldl_append, foldl_graceArmed hi, foldl_rateRefreshed]
      simp only [readyAfter, eachBelow_of_lt hi]

/-- An all-target command drops the graces that are over. -/
theorem readyAfter_publishAll (hi : i < maxTrackers) (command : AllCommand) (mask : TrackerMask) :
    (r.publishAll command mask).readyAfter i =
      (r.publishAllEvents command mask).foldl (followGrace i) (r.readyAfter i) := by
  have hqueued : ∀ v : BitVec 32, ((r.allQueues mask).map fun j =>
      ReceiverEvent.testQueued j command.flag).foldl (followGrace i) v = v := by
    intro v
    refine foldl_eq_self (fun e he v => ?_) v
    obtain ⟨j, -, rfl⟩ := List.mem_map.mp he
    rfl
  have hinstall : ∀ v : BitVec 32, (installEvents command).foldl (followGrace i) v = v := by
    intro v
    cases command <;> rfl
  have hcleared : ((trackersWhere fun j => !withheld r.tdma.uptime (r.testAll.readyAfterMs j)).map
      ReceiverEvent.graceCleared).foldl (followGrace i) (r.readyAfter i) =
      if (!withheld r.tdma.uptime (r.testAll.readyAfterMs i)) = true then
        followGrace i (r.readyAfter i) (.graceCleared i) else r.readyAfter i :=
    foldl_trackersWhere _ _ hi (fun j hj v => if_neg hj) _
  rw [foldl_publishAllEvents, hqueued, hinstall]
  show _ = List.foldl (followGrace i) (r.readyAfter i) _
  rw [hcleared]
  have hready : (r.publishAll command mask).readyAfter i =
      clearExpired r.tdma.uptime (r.readyAfter i) := by
    cases command <;> simp only [publishAll, publishTestFlagMask, installPolicy, readyAfter,
      esbAutoLossInvalidate, dropEvidence, eachBelow_of_lt hi]
  rw [hready, clearExpired, readyAfter, followGrace, if_pos rfl]
  cases withheld r.tdma.uptime (r.testAll.readyAfterMs i) <;> rfl

/-! ## Every step -/

theorem testAll_checkPacketSequence (j : ℕ) (seq : BitVec 8) :
    (r.checkPacketSequence j seq).1.testAll = r.testAll := by rw [checkPacketSequence_eq]

/-- A restart shown by the sequence arms the grace of its tracker under the policy. -/
theorem readyAfter_forwardData (j : ℕ) (result : SequenceResult) (isStatus : Bool) :
    (r.forwardData j result isStatus).readyAfter i =
      if result = .restart ∧ r.testAll.stateValid = true then
        followGrace i (r.readyAfter i) (.graceArmed j r.tdma.uptime) else r.readyAfter i := by
  unfold forwardData
  split
  case isTrue hdropped =>
    have hkept : ¬(result = .restart ∧ r.testAll.stateValid = true) := by
      rintro ⟨rfl, -⟩
      simp at hdropped
    rw [if_neg hkept]
  case isFalse =>
    by_cases harms : result = .restart ∧ r.testAll.stateValid = true
    · simp only [if_pos harms]
      rw [← readyAfter_armGrace]
      split <;> rfl
    · simp only [if_neg harms]
      split <;> rfl

theorem readyAfter_recoverTracker (j : ℕ) : (r.recoverTracker j).readyAfter i =
    if r.testAll.stateValid = true then
      followGrace i (r.readyAfter i) (.graceArmed j r.tdma.uptime) else r.readyAfter i := by
  unfold recoverTracker
  split
  · exact readyAfter_armGrace j r.tdma.uptime
  · rfl

/-- A PING that shows a reboot or ends a silence arms the grace of its tracker under the policy. -/
theorem readyAfter_trackPing (p : PingPacket) : (r.trackPing p).1.readyAfter i =
    if ((r.ping p.trackerId).verdict p.counter r.tdma.uptime = .restart ∨
        (r.ping p.trackerId).verdict p.counter r.tdma.uptime = .timeout) ∧
        r.testAll.stateValid = true then
      followGrace i (r.readyAfter i) (.graceArmed p.trackerId r.tdma.uptime)
    else r.readyAfter i := by
  cases hverdict : (r.ping p.trackerId).verdict p.counter r.tdma.uptime with
  | restart | timeout =>
    simp only [trackPing, hverdict, reduceCtorEq, true_or, or_true, true_and]
    rw [readyAfter_recoverTracker]
    rfl
  | first | duplicate | outOfOrder | progress =>
    simp only [trackPing, hverdict, reduceCtorEq, or_self, false_and, if_false]
    rfl

theorem readyAfter_processPing (p : PingPacket) :
    (r.processPing p).readyAfter i = r.readyAfter i := by
  unfold processPing confirmCommand
  rw [remoteWomReceive_eq]
  simp only []
  split
  · split <;> rfl
  · rfl

theorem readyAfter_receivePing (p : PingPacket) :
    (r.receivePing p).readyAfter i = (r.pingEvents p).foldl (followGrace i) (r.readyAfter i) := by
  have hpipe : (r.notePipe p).testAll = r.testAll ∧ (r.notePipe p).tdma = r.tdma := by
    rw [notePipe_eq]
    exact ⟨rfl, rfl⟩
  unfold receivePing pingEvents
  by_cases hid : p.trackerId ≥ maxTrackers
  · simp [hid]
  · by_cases hcrc : p.crcValid = true
    · have htracked := readyAfter_trackPing (i := i) (r := r.notePipe p) p
      have hready : (r.notePipe p).readyAfter i = r.readyAfter i := by
        rw [readyAfter, hpipe.1, readyAfter]
      rw [verdict_notePipe, hready, hpipe.1, hpipe.2] at htracked
      simp only [hid, hcrc, if_false, Bool.not_true, Bool.false_eq_true, or_false, reduceCtorEq,
        List.foldl_append, foldl_eventIf]
      split <;> simp only [readyAfter_processPing, htracked, followGrace, ite_self]
    · simp [hid, hcrc, noteCrcError, withPing, readyAfter, hpipe.1]

/-- **The stored reading at a step.** It follows what the step reports. -/
theorem readyAfter_step (hi : i < maxTrackers) (h : ReceiverRel r op r' es) :
    r'.readyAfter i = es.foldl (followGrace i) (r.readyAfter i) := by
  have hresets := followGrace_followsOnlyResets i
  cases h with
  | stutter | clearOtaAbort | allGuard | allToken | allScan | allAbort | allRelease | reconcile
  | reconcileRead | womRequest | womCancel | commandQueued | testTargeted | resetAllStats
  | autoLossFence | autoLossInvalidate | rxDiscontinuity => rfl
  | plain _ top t tes hplain hstep =>
    rw [foldl_scheduler_eq_self hresets hstep hplain.not_isRoster]
    rfl
  | lossTick env t tes hstep =>
    rw [foldl_scheduler_eq_self hresets hstep id]
    rfl
  | lossTickRebase env t tes hstep =>
    rw [List.foldl_append, foldl_scheduler_eq_self hresets hstep id]
    rfl
  | pass collecting t tes hstep =>
    rw [foldl_scheduler_eq_self hresets hstep id]
    rfl
  | passPublished collecting t tes p hstep =>
    rw [List.foldl_append, foldl_scheduler_eq_self hresets hstep id]
    rfl
  | roster _ top t tes => exact view_resetSlots hresets readyAfter_resetSlot tes _
  | clear written t tes => exact view_resetSlots hresets readyAfter_resetSlot tes _
  | data j seq onOwnPipe isStatus =>
    have hobserve : ∀ e ∈ r.observeEvents onOwnPipe j, ∀ v, followGrace i v e = v := by
      intro e he
      rw [of_mem_observeEvents he]
      exact fun _ => rfl
    have hobserved : ((r.checkPacketSequence j seq).1.observe onOwnPipe j .data).testAll = r.testAll ∧
        ((r.checkPacketSequence j seq).1.observe onOwnPipe j .data).tdma.uptime = r.tdma.uptime := by
      unfold observe
      split
      · exact ⟨testAll_checkPacketSequence j seq, by simp⟩
      · exact ⟨testAll_checkPacketSequence j seq, by simp⟩
    have hpacket : ∀ v, followGrace i v (r.sequenceEvent j seq) = v := by
      intro v
      unfold sequenceEvent
      cases (r.checkPacketSequence j seq).2 <;> rfl
    rw [readyAfter_forwardData, readyAfter, hobserved.1, hobserved.2, List.foldl_cons,
      List.foldl_append, foldl_eq_self hobserve, foldl_eventIf, hpacket]
    rfl
  | ackPing env p =>
    rw [ackPing_eq]
    cases (r.ackPing env p).2 <;> rfl
  | ping p =>
    have hobserve : ∀ e ∈ r.observeEvents (p.crcValid && p.onOwnPipe) p.trackerId,
        ∀ v, followGrace i v e = v := by
      intro e he
      rw [of_mem_observeEvents he]
      exact fun _ => rfl
    rw [List.foldl_append, foldl_eq_self hobserve, ← readyAfter_receivePing]
    unfold observe
    split <;> rfl
  | womResult id token =>
    rw [womResult_eq]
    cases (r.womResult id token).2 <;> rfl
  | allPublish command token mask => exact readyAfter_publishAll hi command mask
  | noteLayout oldMask newMask activeCount now => exact readyAfter_noteLayout hi oldMask newMask now
  | updateEffective activeCount now => exact readyAfter_updateEffective hi activeCount now
  | reconcilePublish now enabled =>
    rw [foldl_eq_self, testAllReconcile_eq]
    · rfl
    · intro e he
      rcases of_mem_reconcileEvents he with ⟨j, rfl⟩ | ⟨j, rfl⟩ <;> exact fun _ => rfl

/-- The stored reading of a tracker follows the events. -/
def readyAfterView (hi : i < maxTrackers) : EventSystem.View receiverSystem (BitVec 32) where
  view := readyAfter i
  follow := followGrace i
  step _ _ _ _ h := readyAfter_step hi (receiverStep_rel h)

end Receiver

/-! ## Withheld flags -/

/-- The clock reads a grace that ends at `graceEnd` as over: the time since then, in the range of the
reading, is less than half of it. -/
def ReadsOver (graceEnd now : ℕ) : Prop := (now - graceEnd) % 2 ^ 32 < 2 ^ 31

instance (graceEnd now : ℕ) : Decidable (ReadsOver graceEnd now) := Nat.decLt _ _

theorem withheld_iff {graceEnd now : ℕ} (hover : graceEnd ≤ now) :
    withheld now (stamp graceEnd) = true ↔ ¬ReadsOver graceEnd now := by
  have hdistance := signedDistance_stamp_neg_iff now graceEnd
  rw [withheld, decide_eq_true_eq, hdistance, ReadsOver]
  omega

/-- A tracker without a grace is withheld by the same comparison. -/
theorem withheld_zero_iff (now : ℕ) : withheld now 0 = true ↔ ¬ReadsOver 0 now :=
  withheld_iff (Nat.zero_le now)

theorem withheld_clearExpired_iff (now : ℕ) (ready : BitVec 32) :
    withheld now (clearExpired now ready) = true ↔
      withheld now ready = true ∨ withheld now 0 = true := by
  unfold clearExpired
  by_cases hready : withheld now ready = true
  · simp [hready]
  · simp [hready]

theorem testFlag_ne_normal (enabled : Bool) : testFlag enabled ≠ pongFlagNormal := by
  cases enabled <;> decide

theorem AllCommand.flag_ne_normal (command : AllCommand) : command.flag ≠ pongFlagNormal := by
  cases command with
  | on tps => exact testFlag_ne_normal true
  | off => exact testFlag_ne_normal false

namespace Receiver

variable {i : ℕ} {r : Receiver}

/-- A pending command of the tracker. -/
def pendingCommand (i : ℕ) (r : Receiver) : BitVec 8 := (r.command i).trackerRemoteCommand

/-- Whether a reconciliation leaves an eligible tracker without the flag. -/
theorem reconcile_withholds_iff (hi : i < maxTrackers) {now : ℕ} {enabled : Bool}
    (hforce : r.testAll.stateValid = true) (hfree : r.testAll.broadcasting = false)
    (heligible : r.reconcileEligible i = true) :
    (r.testAllReconcile now enabled).pendingCommand i ≠ testFlag enabled ↔
      withheld now (r.readyAfter i) = true := by
  have hnormal : (r.command i).trackerRemoteCommand = pongFlagNormal := by
    simp only [reconcileEligible, Bool.and_eq_true, beq_iff_eq] at heligible
    exact heligible.2
  simp only [testAllReconcile, hforce, hfree, Bool.not_false, Bool.and_true, if_true,
    pendingCommand, eachBelow_of_lt hi, reconcileTracker, heligible, Bool.true_and, readyAfter]
  cases withheld now (r.testAll.readyAfterMs i) with
  | true => simpa [hnormal] using (testFlag_ne_normal enabled).symm
  | false => simp

/-- Whether `esb_publish_test_flag_mask` leaves an eligible tracker without the flag. -/
theorem publishTestFlagMask_withholds_iff (hi : i < maxTrackers) {flag : BitVec 8}
    {mask : TrackerMask} {now : ℕ} (hflag : flag ≠ pongFlagNormal) (hmask : hasBit mask i = true)
    (hnormal : r.pendingCommand i = pongFlagNormal) :
    (r.publishTestFlagMask flag mask now).pendingCommand i ≠ flag ↔
      withheld now (r.readyAfter i) = true := by
  rw [pendingCommand] at hnormal
  simp only [publishTestFlagMask, pendingCommand, eachBelow_of_lt hi, hmask, hnormal,
    beq_self_eq_true, Bool.true_and, readyAfter]
  cases withheld now (r.testAll.readyAfterMs i) with
  | true => simpa [hnormal] using hflag.symm
  | false => simp

/-- Whether the publication of an all-target command leaves an eligible tracker without the flag. -/
theorem publishAll_withholds_iff (hi : i < maxTrackers) {command : AllCommand} {mask : TrackerMask}
    (hmask : hasBit mask i = true) (hnormal : r.pendingCommand i = pongFlagNormal) :
    (r.publishAll command mask).pendingCommand i ≠ command.flag ↔
      withheld r.tdma.uptime (r.readyAfter i) = true ∨ withheld r.tdma.uptime 0 = true := by
  rw [← withheld_clearExpired_iff]
  rw [pendingCommand] at hnormal
  cases command <;>
  · simp only [publishAll, publishTestFlagMask, installPolicy, esbAutoLossInvalidate, dropEvidence,
      pendingCommand, readyAfter, eachBelow_of_lt hi, hmask, hnormal, beq_self_eq_true,
      Bool.true_and]
    cases withheld r.tdma.uptime (clearExpired r.tdma.uptime (r.testAll.readyAfterMs i)) with
    | true => simpa [hnormal] using (AllCommand.flag_ne_normal _).symm
    | false => simp

end Receiver

/-- The stored reading at the end of a run. -/
theorem readyAfter_of_run {trace : List ReceiverEvent} {r : Receiver}
    (h : receiverSystem.Run trace r) {i : ℕ} (hi : i < maxTrackers) :
    r.readyAfter i = stamp (graceEnd i trace) := by
  rw [← graceReading_lastGrace, ← foldl_followGrace]
  exact (readyAfterView hi).run h

/-- A flag is withheld by a running grace only, exactly if a grace that is over reads as over. -/
theorem honoured_iff {i : ℕ} {trace : List ReceiverEvent} {now : ℕ} {withholds : Prop}
    (hwithholds : withholds ↔ withheld now (stamp (graceEnd i trace)) = true) :
    (withholds → GraceRuns i trace now) ↔
      (graceEnd i trace ≤ now → ReadsOver (graceEnd i trace) now) := by
  rw [hwithholds, graceRuns_iff]
  constructor
  · intro hruns hover
    by_contra hreads
    have := hruns ((withheld_iff hover).mpr hreads)
    omega
  · intro hreads hheld
    by_contra hover
    have hover : graceEnd i trace ≤ now := not_lt.mp hover
    exact (withheld_iff hover).mp hheld (hreads hover)

/-- **The join grace.** In every run, a reconciliation and `esb_publish_test_flag_mask` withhold the
flag of an eligible tracker because of a running grace only, exactly if a grace that is over reads
as over at that time; the all-target commands need in addition that the uptime itself does. -/
theorem join_grace {trace : List ReceiverEvent} {r : Receiver} (h : receiverSystem.Run trace r)
    {i : ℕ} (hi : i < maxTrackers) :
    (∀ now enabled, r.testAll.stateValid = true → r.testAll.broadcasting = false →
      r.reconcileEligible i = true →
      (((r.testAllReconcile now enabled).pendingCommand i ≠ testFlag enabled →
          GraceRuns i trace now) ↔
        (graceEnd i trace ≤ now → ReadsOver (graceEnd i trace) now))) ∧
    (∀ enabled mask now, hasBit mask i = true → r.pendingCommand i = pongFlagNormal →
      (((r.publishTestFlagMask (testFlag enabled) mask now).pendingCommand i ≠ testFlag enabled →
          GraceRuns i trace now) ↔
        (graceEnd i trace ≤ now → ReadsOver (graceEnd i trace) now))) ∧
    ∀ command mask, hasBit mask i = true → r.pendingCommand i = pongFlagNormal →
      (((r.publishAll command mask).pendingCommand i ≠ command.flag →
          GraceRuns i trace r.tdma.uptime) ↔
        (graceEnd i trace ≤ r.tdma.uptime →
          ReadsOver (graceEnd i trace) r.tdma.uptime ∧ ReadsOver 0 r.tdma.uptime)) := by
  have hready := readyAfter_of_run h hi
  refine ⟨?_, ?_, ?_⟩
  · intro now enabled hforce hfree heligible
    refine honoured_iff ?_
    rw [reconcile_withholds_iff hi hforce hfree heligible, hready]
  · intro enabled mask now hmask hnormal
    refine honoured_iff ?_
    rw [publishTestFlagMask_withholds_iff hi (testFlag_ne_normal enabled) hmask hnormal, hready]
  · intro command mask hmask hnormal
    rw [publishAll_withholds_iff hi hmask hnormal, hready, graceRuns_iff, withheld_zero_iff]
    constructor
    · intro hruns hover
      by_contra hreads
      have hheld : withheld r.tdma.uptime (stamp (graceEnd i trace)) = true ∨
          ¬ReadsOver 0 r.tdma.uptime := by
        rw [withheld_iff hover]
        exact not_and_or.mp hreads
      have := hruns hheld
      omega
    · intro hreads hheld
      by_contra hover
      have hover : graceEnd i trace ≤ r.tdma.uptime := not_lt.mp hover
      rw [withheld_iff hover] at hheld
      exact not_and_or.mpr hheld (hreads hover)

/-- A tracker joins `late` ms after the reset of the receiver, and an all-target command has scanned
it. -/
def lateJoin (late : ℕ) : List ReceiverOp :=
  [.restoreStore 1 fun i => i + 1, .advance late, .data 0 1 true false, .advance 200,
    .callRecalculate, .pass false, .pass false, .noteLayout, .updateEffective, .allGuard (.on 100),
    .allToken, .data 0 2 true false, .allScan]

/-- At the start of the clock the flag of the tracker is published. -/
theorem join_grace_lateJoin : ∃ trace r mask, receiverSystem.Run trace r ∧
    r.broadcastTask = .scanned (.on 100) 1 mask ∧ r.testAll.generation = 1 ∧
    hasBit mask 0 = true ∧ r.pendingCommand 0 = pongFlagNormal ∧ lastGrace 0 trace = none ∧
    (r.publishAll (.on 100) mask).pendingCommand 0 = pongFlagTestModeOn := by
  obtain ⟨trace, r, hrun, htest⟩ := receiverSystem.exists_run_of_replay (lateJoin 0)
    (fun trace r => decide (r.broadcastTask = .scanned (.on 100) 1 1 ∧ r.testAll.generation = 1 ∧
      r.pendingCommand 0 = pongFlagNormal ∧ lastGrace 0 trace = none ∧ ReadsOver 0 r.tdma.uptime))
    (by decide +kernel)
  rw [decide_eq_true_eq] at htest
  obtain ⟨htask, howned, hnormal, hgrace, hreads⟩ := htest
  have hend : graceEnd 0 trace = 0 := by
    rw [graceEnd, hgrace]
    rfl
  have hmask : hasBit (1#32) 0 = true := by decide
  refine ⟨trace, r, 1, hrun, htask, howned, hmask, hnormal, hgrace, ?_⟩
  by_contra hwithheld
  have hlaw := ((join_grace hrun (i := 0) (by decide)).2.2 (.on 100) 1 hmask hnormal).mpr
    fun _ => ⟨by rw [hend]; exact hreads, hreads⟩
  obtain ⟨armed, harmed, -⟩ := hlaw hwithheld
  rw [hgrace] at harmed
  cases harmed

/-- From half the range of the reading on, the tracker is withheld although it has no grace. -/
theorem join_grace_withholds_without_grace : ∃ trace r mask, receiverSystem.Run trace r ∧
    r.broadcastTask = .scanned (.on 100) 1 mask ∧ r.testAll.generation = 1 ∧
    hasBit mask 0 = true ∧ r.pendingCommand 0 = pongFlagNormal ∧ lastGrace 0 trace = none ∧
    ¬((r.publishAll (.on 100) mask).pendingCommand 0 ≠ AllCommand.flag (.on 100) →
      GraceRuns 0 trace r.tdma.uptime) := by
  obtain ⟨trace, r, hrun, htest⟩ := receiverSystem.exists_run_of_replay (lateJoin (2 ^ 31))
    (fun trace r => decide (r.broadcastTask = .scanned (.on 100) 1 1 ∧ r.testAll.generation = 1 ∧
      r.pendingCommand 0 = pongFlagNormal ∧ lastGrace 0 trace = none ∧
      (r.publishAll (.on 100) 1).pendingCommand 0 = pongFlagNormal)) (by decide +kernel)
  rw [decide_eq_true_eq] at htest
  obtain ⟨htask, howned, hnormal, hgrace, hpublished⟩ := htest
  refine ⟨trace, r, 1, hrun, htask, howned, by decide, hnormal, hgrace, fun hlaw => ?_⟩
  obtain ⟨armed, harmed, -⟩ := hlaw (by rw [hpublished]; exact (testFlag_ne_normal true).symm)
  rw [hgrace] at harmed
  cases harmed

end SlimeReceiver
