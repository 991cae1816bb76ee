import SlimeReceiver.Receiver.Machine

/-! # What a step of the receiver can do

* **`ReceiverRel`** — the steps of the receiver as a relation, one named case for each thing that
  can happen.
* **`receiverStep_rel`** — the inversion through which every proof about runs goes. -/

namespace SlimeReceiver

open Receiver

/-- Scheduler steps that publish nothing, judge nothing and reset no slot. -/
def TdmaOp.IsPlain : TdmaOp → Prop
  | .advance _ | .readClock | .update | .callRecalculate | .resetLossStats | .restoreStore _ _ => True
  | _ => False

/-- Roster operations. -/
def TdmaOp.IsRoster : TdmaOp → Prop
  | .addPair _ _ | .popPair _ | .clear _ => True
  | _ => False

/-- The steps of the receiver as a relation. -/
inductive ReceiverRel (r : Receiver) : ReceiverOp → Receiver → List ReceiverEvent → Prop
  | stutter (op : ReceiverOp) : ReceiverRel r op r []
  | plain (op : ReceiverOp) (top : TdmaOp) (t : Tdma) (tes : List TdmaEvent) : top.IsPlain →
      tdmaStep r.tdma top = some (t, tes) →
      ReceiverRel r op { r with tdma := t } (tes.map .scheduler)
  | lossTick (env : TickEnvironment) (t : Tdma) (tes : List TdmaEvent) :
      tdmaStep r.tdma (.lossTick (r.tickInput env)) = some (t, tes) → tickRebases t tes = false →
      ReceiverRel r (.lossTick env) { r with tdma := t } (tes.map .scheduler)
  | lossTickRebase (env : TickEnvironment) (t : Tdma) (tes : List TdmaEvent) :
      tdmaStep r.tdma (.lossTick (r.tickInput env)) = some (t, tes) → tickRebases t tes = true →
      ReceiverRel r (.lossTick env) ({ r with tdma := t } : Receiver).esbAutoLossFence
        (tes.map ReceiverEvent.scheduler ++ [ReceiverEvent.fenced])
  | pass (collecting : Bool) (t : Tdma) (tes : List TdmaEvent) :
      tdmaStep r.tdma (.pass ⟨r.testAll.enabled, collecting⟩) = some (t, tes) →
      publicationIn tes = none →
      ReceiverRel r (.pass collecting) { r with tdma := t } (tes.map .scheduler)
  | passPublished (collecting : Bool) (t : Tdma) (tes : List TdmaEvent) (p : Publication) :
      tdmaStep r.tdma (.pass ⟨r.testAll.enabled, collecting⟩) = some (t, tes) →
      publicationIn tes = some p →
      ReceiverRel r (.pass collecting)
        { ({ r with tdma := t } : Receiver).dropEvidence with
          policyTask := ({ r with tdma := t } : Receiver).afterPublication p
            r.tdma.layout.activeMask }
        (tes.map ReceiverEvent.scheduler ++ [ReceiverEvent.fenced])
  | roster (op : ReceiverOp) (top : TdmaOp) (t : Tdma) (tes : List TdmaEvent) : top.IsRoster →
      tdmaStep r.tdma top = some (t, tes) → ReceiverRel r op
        ((forgottenIds tes).foldl (fun (q : Receiver) id => q.resetSlot id) { r with tdma := t })
        (tes.map .scheduler)
  | clear (written : Bool) (t : Tdma) (tes : List TdmaEvent) :
      tdmaStep r.tdma (.clear written) = some (t, tes) → ReceiverRel r (.clear written)
        ((forgottenIds tes).foldl (fun (q : Receiver) id => q.resetSlot id)
          { r with tdma := t }).clearPolicy
        (.policyCleared :: tes.map .scheduler)
  | resetAllStats : ReceiverRel r .resetAllStats r.resetAllStats [.fenced, .statsReset]
  | data (trackerId : ℕ) (seq : BitVec 8) (onOwnPipe isStatus : Bool) :
      trackerId < r.tdma.roster.storedTrackers →
      ReceiverRel r (.data trackerId seq onOwnPipe isStatus)
        (((r.checkPacketSequence trackerId seq).1.observe onOwnPipe trackerId .data).forwardData
          trackerId (r.checkPacketSequence trackerId seq).2 isStatus)
        (r.sequenceEvent trackerId seq :: (r.observeEvents onOwnPipe trackerId ++
          eventIf ((r.checkPacketSequence trackerId seq).2 = .restart ∧ r.testAll.stateValid)
            (.graceArmed trackerId r.tdma.uptime)))
  | ackPing (env : PongEnvironment) (p : PingPacket) : ReceiverRel r (.ackPing env p)
      (r.ackPing env p).1 ((r.ackPing env p).2.map (.ponged p.ackFlag)).toList
  | ping (p : PingPacket) : ReceiverRel r (.ping p)
      ((r.receivePing p).observe (p.crcValid && p.onOwnPipe) p.trackerId .ping)
      (r.observeEvents (p.crcValid && p.onOwnPipe) p.trackerId ++ r.pingEvents p)
  | autoLossFence : ReceiverRel r .autoLossFence r.esbAutoLossFence [.fenced]
  | autoLossInvalidate : ReceiverRel r .autoLossInvalidate r.esbAutoLossInvalidate [.fenced]
  | rxDiscontinuity : ReceiverRel r .rxDiscontinuity r.esbRxDiscontinuity [.discontinuity]
  | womRequest (target : ℕ) (minutes : BitVec 16) (scanStart : ℕ) :
      womRequestValid target minutes = true → r.womTargets target scanStart ≠ 0 →
      ReceiverRel r (.womRequest target minutes scanStart)
        (r.issueWom (r.womTargets target scanStart) minutes)
        [.womRequested (r.womTargets target scanStart) (nextWomToken r.womNextToken) minutes]
  | womResult (id : ℕ) (token : BitVec 16) : ReceiverRel r (.womResult id token)
      (r.womResult id token).1
      ((r.womResult id token).2.map fun q => .womReported id token q.1 q.2).toList
  | womCancel (mask : TrackerMask) (token : BitVec 16) : ReceiverRel r (.womCancel mask token)
      (r.womCancel mask token) [.womCancelled mask token]
  | commandQueued (op : ReceiverOp) (trackerId : ℕ) (flag : BitVec 8) (slot : CommandSlot) :
      trackerId < maxTrackers → reservedFlag flag = false → slot.trackerRemoteCommand = flag →
      slot.trackerTestOnTps = (r.command trackerId).trackerTestOnTps →
      ReceiverRel r op (r.withCommand trackerId slot) [.commandQueued trackerId flag]
  | clearOtaAbort (trackerId : ℕ) : trackerId < maxTrackers →
      (r.command trackerId).trackerRemoteCommand = pongFlagOtaAbort →
      ReceiverRel r (.clearOtaAbort trackerId) (r.setCommandFlag trackerId pongFlagNormal) []
  | testTargeted (op : ReceiverOp) (trackerId : ℕ) (tps : BitVec 16) (enabled : Bool) :
      op = .testOn trackerId tps ∧ enabled = true ∨
        op = .testOff trackerId ∧ enabled = false ∧ tps = 0 →
      trackerId < maxTrackers → ReceiverRel r op (r.sendTest trackerId tps (testFlag enabled))
        [.testTargeted trackerId (testFlag enabled) tps]
  | allGuard (command : AllCommand) : r.broadcastTask = .idle → ReceiverRel r (.allGuard command)
      { r with
        broadcastTask := .guarded command
        testAll := { r.testAll with broadcasting := true } } []
  | allToken (command : AllCommand) : r.broadcastTask = .guarded command → ReceiverRel r .allToken
      { r with
        broadcastTask := .scanning command (r.testAll.generation + 1) r.tdma.uptime
        testAll := { r.testAll with generation := r.testAll.generation + 1 } } [.tokenDrawn]
  | allScan (command : AllCommand) (token : BitVec 32) (scanStart : ℕ) :
      r.broadcastTask = .scanning command token scanStart → ReceiverRel r .allScan
        { r with broadcastTask := .scanned command token (r.scanActiveMask scanStart) } []
  | allPublish (command : AllCommand) (token : BitVec 32) (mask : TrackerMask) :
      r.broadcastTask = .scanned command token mask → r.testAll.generation = token →
      ReceiverRel r .allPublish { r.publishAll command mask with broadcastTask := .idle }
        (r.publishAllEvents command mask)
  | allAbort (command : AllCommand) (token : BitVec 32) (mask : TrackerMask) :
      r.broadcastTask = .scanned command token mask → r.testAll.generation ≠ token →
      ReceiverRel r .allPublish { r with broadcastTask := .aborting } [.allAborted]
  | allRelease : r.broadcastTask = .aborting → ReceiverRel r .allRelease
      { r with
        broadcastTask := .idle
        testAll := { r.testAll with broadcasting := false } } []
  | noteLayout (oldMask newMask : TrackerMask) (activeCount now : ℕ) :
      r.policyTask = .noteLayout oldMask newMask activeCount now → ReceiverRel r .noteLayout
        { r.testAllNoteLayout oldMask newMask now with
          policyTask := .updateEffective activeCount now } (r.noteLayoutEvents oldMask newMask now)
  | updateEffective (activeCount now : ℕ) : r.policyTask = .updateEffective activeCount now →
      ReceiverRel r .updateEffective
        { r.testAllUpdateEffective activeCount now with policyTask := .idle }
        (r.updateEffectiveEvents activeCount now)
  | reconcile (now : ℕ) : r.storeFree = true → now ≤ r.tdma.uptime →
      r.testAll.stateValid = true → r.testAll.broadcasting = false →
      ReceiverRel r (.reconcile now) { r with policyTask := .reconcile now } []
  | reconcileRead (now : ℕ) : r.policyTask = .reconcile now → ReceiverRel r .reconcileRead
      { r with policyTask := .reconcileQueued now r.testAll.enabled } []
  | reconcilePublish (now : ℕ) (enabled : Bool) : r.policyTask = .reconcileQueued now enabled →
      ReceiverRel r .reconcilePublish { r.testAllReconcile now enabled with policyTask := .idle }
        (r.reconcileEvents now enabled)

section Inversion

variable {r r' : Receiver} {op : ReceiverOp} {es : List ReceiverEvent}

theorem rel_stepTdma (op : ReceiverOp) {top : TdmaOp} (h : r.stepTdma top = some (r', es))
    (hplain : top.IsPlain) : ReceiverRel r op r' es := by
  obtain ⟨⟨t, tes⟩, hstep, heq⟩ := Option.map_eq_some_iff.mp h
  obtain ⟨rfl, rfl⟩ := Prod.mk.inj heq
  exact .plain op top t tes hplain hstep

theorem rel_stepRoster (op : ReceiverOp) {top : TdmaOp} (h : r.stepRoster top = some (r', es))
    (hroster : top.IsRoster) : ReceiverRel r op r' es := by
  obtain ⟨⟨t, tes⟩, hstep, heq⟩ := Option.map_eq_some_iff.mp h
  obtain ⟨rfl, rfl⟩ := Prod.mk.inj heq
  exact .roster op top t tes hroster hstep

theorem rel_stepClear {written : Bool} (h : r.stepClear written = some (r', es)) :
    ReceiverRel r (.clear written) r' es := by
  obtain ⟨⟨r₁, es₁⟩, hroster, heq⟩ := Option.map_eq_some_iff.mp h
  dsimp only at heq
  split at heq
  · cases heq
    exact rel_stepRoster _ hroster trivial
  · obtain ⟨⟨t, tes⟩, hstep, heq₁⟩ := Option.map_eq_some_iff.mp hroster
    obtain ⟨rfl, rfl⟩ := Prod.mk.inj heq₁
    obtain ⟨rfl, rfl⟩ := Prod.mk.inj heq
    exact .clear written t tes hstep

theorem rel_stepLossTick {env : TickEnvironment} (h : r.stepLossTick env = some (r', es)) :
    ReceiverRel r (.lossTick env) r' es := by
  obtain ⟨⟨t, tes⟩, hstep, heq⟩ := Option.map_eq_some_iff.mp h
  dsimp only at heq
  split at heq
  case isTrue hrebases =>
    obtain ⟨rfl, rfl⟩ := Prod.mk.inj heq
    exact .lossTickRebase env t tes hstep hrebases
  case isFalse hkeeps =>
    obtain ⟨rfl, rfl⟩ := Prod.mk.inj heq
    exact .lossTick env t tes hstep (by simpa using hkeeps)

theorem rel_stepPass {collecting : Bool} (h : r.stepPass collecting = some (r', es)) :
    ReceiverRel r (.pass collecting) r' es := by
  obtain ⟨⟨t, tes⟩, hstep, heq⟩ := Option.map_eq_some_iff.mp h
  dsimp only at heq
  split at heq
  case h_1 hnone =>
    obtain ⟨rfl, rfl⟩ := Prod.mk.inj heq
    exact .pass collecting t tes hstep hnone
  case h_2 p hpublished =>
    obtain ⟨rfl, rfl⟩ := Prod.mk.inj heq
    exact .passPublished collecting t tes p hstep hpublished

theorem rel_receiveData {trackerId : ℕ} {seq : BitVec 8} {onOwnPipe isStatus : Bool}
    (h : r.receiveData trackerId seq onOwnPipe isStatus = (r', es)) :
    ReceiverRel r (.data trackerId seq onOwnPipe isStatus) r' es := by
  unfold receiveData at h
  split at h
  case isTrue hstored =>
    obtain ⟨rfl, rfl⟩ := Prod.mk.inj h
    exact .data trackerId seq onOwnPipe isStatus hstored
  case isFalse =>
    cases h
    exact .stutter _

theorem rel_womRequest {target : ℕ} {minutes : BitVec 16} {scanStart : ℕ}
    (h : ((r.womRequest target minutes scanStart).1,
      if (r.womRequest target minutes scanStart).2.1 = 0 then [] else
        [ReceiverEvent.womRequested (r.womRequest target minutes scanStart).2.1
          (r.womRequest target minutes scanStart).2.2 minutes]) = (r', es)) :
    ReceiverRel r (.womRequest target minutes scanStart) r' es := by
  unfold womRequest at h
  by_cases hvalid : womRequestValid target minutes = true
  · by_cases htargets : r.womTargets target scanStart = 0
    · simp only [hvalid, htargets, Bool.not_true, Bool.false_eq_true, if_true, if_false] at h
      cases h
      exact .stutter _
    · simp only [hvalid, htargets, Bool.not_true, Bool.false_eq_true, if_false] at h
      obtain ⟨rfl, rfl⟩ := Prod.mk.inj h
      exact .womRequest target minutes scanStart hvalid htargets
  · simp only [hvalid, Bool.not_false, if_true] at h
    cases h
    exact .stutter _

theorem rel_stepAllPublish {command : AllCommand} {token : BitVec 32} {mask : TrackerMask}
    (htask : r.broadcastTask = .scanned command token mask)
    (h : r.stepAllPublish command token mask = (r', es)) : ReceiverRel r .allPublish r' es := by
  rw [stepAllPublish] at h
  split at h
  case isTrue howned =>
    obtain ⟨rfl, rfl⟩ := Prod.mk.inj h
    exact .allPublish command token mask htask howned
  case isFalse hlost =>
    obtain ⟨rfl, rfl⟩ := Prod.mk.inj h
    exact .allAbort command token mask htask hlost

theorem reservedFlag_sensFlag (auto : Bool) : reservedFlag (sensFlag auto) = false := by
  cases auto <;> decide

/-- **Inversion of a step.** -/
theorem receiverStep_rel (h : receiverStep r op = some (r', es)) : ReceiverRel r op r' es := by
  cases op with
  | advance | update | resetLossStats => exact rel_stepTdma _ h trivial
  | readClock | callRecalculate | restoreStore =>
    simp only [receiverStep] at h
    split at h
    · exact rel_stepTdma _ h trivial
    · cases h
  | pass collecting => exact rel_stepPass h
  | lossTick env =>
    simp only [receiverStep] at h
    split at h
    · exact rel_stepLossTick h
    · cases h
  | addPair | popPair =>
    simp only [receiverStep] at h
    split at h
    · exact rel_stepRoster _ h trivial
    · cases h
  | clear written =>
    simp only [receiverStep] at h
    split at h
    · exact rel_stepClear h
    · cases h
  | data trackerId seq onOwnPipe isStatus => exact rel_receiveData (Option.some.inj h)
  | ping p =>
    obtain ⟨rfl, rfl⟩ := Prod.mk.inj (Option.some.inj h)
    exact .ping p
  | resetAllStats =>
    obtain ⟨rfl, rfl⟩ := Prod.mk.inj (Option.some.inj h)
    exact .resetAllStats
  | autoLossInvalidate =>
    obtain ⟨rfl, rfl⟩ := Prod.mk.inj (Option.some.inj h)
    exact .autoLossInvalidate
  | rxDiscontinuity =>
    obtain ⟨rfl, rfl⟩ := Prod.mk.inj (Option.some.inj h)
    exact .rxDiscontinuity
  | autoLossFence =>
    obtain ⟨rfl, rfl⟩ := Prod.mk.inj (Option.some.inj h)
    exact .autoLossFence
  | ackPing env p =>
    obtain ⟨rfl, rfl⟩ := Prod.mk.inj (Option.some.inj h)
    exact .ackPing env p
  | womRequest target minutes scanStart =>
    simp only [receiverStep] at h
    split at h
    · exact rel_womRequest (Option.some.inj h)
    · cases h
  | womResult id token =>
    obtain ⟨rfl, rfl⟩ := Prod.mk.inj (Option.some.inj h)
    exact .womResult id token
  | womCancel mask token =>
    obtain ⟨rfl, rfl⟩ := Prod.mk.inj (Option.some.inj h)
    exact .womCancel mask token
  | remoteCommand trackerId flag arg =>
    simp only [receiverStep] at h
    split at h <;> obtain ⟨rfl, rfl⟩ := Prod.mk.inj (Option.some.inj h)
    case isTrue hvalid => exact .commandQueued _ trackerId flag _ hvalid.1 hvalid.2 rfl rfl
    case isFalse => exact .stutter _
  | publishFlag trackerId flag =>
    simp only [receiverStep] at h
    split at h <;> obtain ⟨rfl, rfl⟩ := Prod.mk.inj (Option.some.inj h)
    case isTrue hvalid => exact .commandQueued _ trackerId flag _ hvalid.1 hvalid.2 rfl rfl
    case isFalse => exact .stutter _
  | sensCommand trackerId auto =>
    simp only [receiverStep] at h
    split at h <;> obtain ⟨rfl, rfl⟩ := Prod.mk.inj (Option.some.inj h)
    case isTrue hid =>
      exact .commandQueued _ trackerId _ _ hid (reservedFlag_sensFlag auto) rfl rfl
    case isFalse => exact .stutter _
  | clearOtaAbort trackerId =>
    simp only [receiverStep] at h
    split at h <;> obtain ⟨rfl, rfl⟩ := Prod.mk.inj (Option.some.inj h)
    case isTrue hid =>
      unfold clearRemoteOtaAbort
      split
      case isTrue hpending => exact .clearOtaAbort trackerId hid hpending
      case isFalse => exact .stutter _
    case isFalse => exact .stutter _
  | testOn trackerId tps =>
    obtain ⟨rfl, rfl⟩ := Prod.mk.inj (Option.some.inj h)
    by_cases hid : trackerId < maxTrackers
    · rw [sendTestOn, if_neg (not_le.mpr hid), if_pos hid]
      exact .testTargeted _ trackerId tps true (.inl ⟨rfl, rfl⟩) hid
    · rw [sendTestOn, if_pos (not_lt.mp hid), if_neg hid]
      exact .stutter _
  | testOff trackerId =>
    obtain ⟨rfl, rfl⟩ := Prod.mk.inj (Option.some.inj h)
    by_cases hid : trackerId < maxTrackers
    · rw [sendTestOff, if_neg (not_le.mpr hid), if_pos hid]
      exact .testTargeted _ trackerId 0 false (.inr ⟨rfl, rfl, rfl⟩) hid
    · rw [sendTestOff, if_pos (not_lt.mp hid), if_neg hid]
      exact .stutter _
  | allGuard command =>
    simp only [receiverStep] at h
    split at h
    case isTrue hidle =>
      obtain ⟨rfl, rfl⟩ := Prod.mk.inj (Option.some.inj h)
      exact .allGuard command hidle
    case isFalse => cases h
  | allToken =>
    simp only [receiverStep] at h
    split at h
    case h_1 command htask =>
      obtain ⟨rfl, rfl⟩ := Prod.mk.inj (Option.some.inj h)
      exact .allToken command htask
    case h_2 => cases h
  | allScan =>
    simp only [receiverStep] at h
    split at h
    case h_1 command token scanStart htask =>
      split at h
      · obtain ⟨rfl, rfl⟩ := Prod.mk.inj (Option.some.inj h)
        exact .allScan command token scanStart htask
      · cases h
    case h_2 => cases h
  | allPublish =>
    simp only [receiverStep] at h
    split at h
    case h_1 command token mask htask =>
      exact rel_stepAllPublish htask (Option.some.inj h)
    case h_2 => cases h
  | allRelease =>
    simp only [receiverStep] at h
    split at h
    case isTrue htask =>
      obtain ⟨rfl, rfl⟩ := Prod.mk.inj (Option.some.inj h)
      exact .allRelease htask
    case isFalse => cases h
  | noteLayout =>
    simp only [receiverStep] at h
    split at h
    case h_1 oldMask newMask activeCount now htask =>
      obtain ⟨rfl, rfl⟩ := Prod.mk.inj (Option.some.inj h)
      exact .noteLayout oldMask newMask activeCount now htask
    case h_2 => cases h
  | updateEffective =>
    simp only [receiverStep] at h
    split at h
    case h_1 activeCount now htask =>
      obtain ⟨rfl, rfl⟩ := Prod.mk.inj (Option.some.inj h)
      exact .updateEffective activeCount now htask
    case h_2 => cases h
  | reconcile now =>
    simp only [receiverStep, Bool.and_eq_true, decide_eq_true_eq, Bool.not_eq_true'] at h
    split at h
    case isTrue hfree =>
      split at h <;> obtain ⟨rfl, rfl⟩ := Prod.mk.inj (Option.some.inj h)
      case isTrue hforce => exact .reconcile now hfree.1 hfree.2 hforce.1 hforce.2
      case isFalse => exact .stutter _
    case isFalse => cases h
  | reconcileRead =>
    simp only [receiverStep] at h
    split at h
    case h_1 now htask =>
      obtain ⟨rfl, rfl⟩ := Prod.mk.inj (Option.some.inj h)
      exact .reconcileRead now htask
    case h_2 => cases h
  | reconcilePublish =>
    simp only [receiverStep] at h
    split at h
    case h_1 now enabled htask =>
      obtain ⟨rfl, rfl⟩ := Prod.mk.inj (Option.some.inj h)
      exact .reconcilePublish now enabled htask
    case h_2 => cases h

end Inversion

/-! ## What the events of a step tell a view -/

section Views

variable {ν : Type*} {follow : ν → ReceiverEvent → ν} {r : Receiver}

/-- Of the scheduler's events a view follows at most the slot resets. -/
def FollowsOnlyResets (follow : ν → ReceiverEvent → ν) : Prop :=
  ∀ v e, (∀ id, e ≠ .forgotten id) → follow v (.scheduler e) = v

/-- Only roster operations reset slots. -/
theorem forgotten_notMem {t t' : Tdma} {top : TdmaOp} {tes : List TdmaEvent}
    (h : tdmaStep t top = some (t', tes)) (hop : ¬top.IsRoster) :
    ∀ e ∈ tes, ∀ id, e ≠ .forgotten id := by
  intro e he id heq
  subst heq
  cases tdmaStep_rel h with
  | pass forced diagnosticsReset modes =>
    simp only [Tdma.passEvents, List.mem_append] at he
    rcases he with (he | he) | he
    · split at he <;> simp at he
    · split at he
      · simp at he
      · split at he <;> simp at he
    · split at he <;> simp at he
  | addPair | popPair | clear => exact hop trivial
  | _ => simp at he

theorem foldl_scheduler_eq_self (hfollow : FollowsOnlyResets follow) {t t' : Tdma} {top : TdmaOp}
    {tes : List TdmaEvent} (h : tdmaStep t top = some (t', tes)) (hop : ¬top.IsRoster) (v : ν) :
    (tes.map .scheduler).foldl follow v = v := by
  refine foldl_eq_self (fun e he v => ?_) v
  obtain ⟨te, hte, rfl⟩ := List.mem_map.mp he
  exact hfollow v te (forgotten_notMem h hop te hte)

theorem TdmaOp.IsPlain.not_isRoster {top : TdmaOp} (h : top.IsPlain) : ¬top.IsRoster := by
  cases top <;> simp_all [TdmaOp.IsPlain, TdmaOp.IsRoster]

/-- A view that follows the reset of one slot follows the resets of a roster operation. -/
theorem view_resetSlots {view : Receiver → ν} (hfollow : FollowsOnlyResets follow)
    (hreset : ∀ r id, view (resetSlot id r) = follow (view r) (.scheduler (.forgotten id)))
    (tes : List TdmaEvent) (r : Receiver) :
    view ((forgottenIds tes).foldl (fun (q : Receiver) id => q.resetSlot id) r) =
      (tes.map .scheduler).foldl follow (view r) := by
  induction tes generalizing r with
  | nil => rfl
  | cons e tes ih =>
    rw [List.map_cons, List.foldl_cons]
    by_cases he : ∃ id, e = .forgotten id
    · obtain ⟨id, rfl⟩ := he
      rw [← hreset]
      exact ih (r.resetSlot id)
    · have hne : ∀ id, e ≠ .forgotten id := fun id heq => he ⟨id, heq⟩
      have hskip : forgottenIds (e :: tes) = forgottenIds tes := by
        refine List.filterMap_cons_none ?_
        cases e <;> simp_all
      rw [hskip, hfollow _ e hne]
      exact ih r

@[simp] theorem foldl_eventIf (c : Prop) [Decidable c] (e : ReceiverEvent) (v : ν) :
    (eventIf c e).foldl follow v = if c then follow v e else v := by
  unfold eventIf
  split <;> rfl

/-- What is reported tracker by tracker, as one tracker sees it. -/
theorem foldl_trackersWhere (p : ℕ → Bool) (event : ℕ → ReceiverEvent) {i : ℕ} (hi : i < maxTrackers)
    (hother : ∀ j ≠ i, ∀ v, follow v (event j) = v) (v : ν) :
    ((trackersWhere p).map event).foldl follow v = if p i then follow v (event i) else v := by
  have hrange : ∀ n, (((List.range n).filter p).map event).foldl follow v =
      if i < n ∧ p i = true then follow v (event i) else v := by
    intro n
    induction n with
    | zero => simp
    | succ n ih =>
      rw [List.range_succ, List.filter_append, List.map_append, List.foldl_append, ih]
      by_cases hn : n = i
      · subst hn
        by_cases hp : p n = true
        · simp [hp]
        · simp [hp]
      · have hlt : i < n + 1 ↔ i < n := by omega
        by_cases hp : p n = true
        · simp [hp, hlt, hother n hn]
        · simp [hp, hlt]
  rw [trackersWhere, hrange]
  simp [hi]

/-- The publication of an all-target command, list by list. -/
theorem foldl_publishAllEvents (command : AllCommand) (mask : TrackerMask) (v : ν) :
    (r.publishAllEvents command mask).foldl follow v =
      ((r.allQueues mask).map fun i => .testQueued i command.flag).foldl follow
        (((trackersWhere fun i => !withheld r.tdma.uptime (r.testAll.readyAfterMs i)).map
          .graceCleared).foldl follow
          ((installEvents command).foldl follow (follow v (.allPublished command mask)))) := by
  rw [publishAllEvents, List.foldl_append, List.foldl_append]
  rfl

end Views

/-! ## What the policy reports -/

section PolicyEvents

variable {r : Receiver} {e : ReceiverEvent}

theorem of_mem_noteLayoutEvents {oldMask newMask : TrackerMask} {now : ℕ}
    (h : e ∈ r.noteLayoutEvents oldMask newMask now) :
    (∃ i, e = .rateRefreshed i) ∨ ∃ i, e = .graceArmed i now := by
  unfold noteLayoutEvents at h
  split at h
  · cases h
  · rcases List.mem_append.mp h with h | h
    · split at h
      · obtain ⟨i, -, rfl⟩ := List.mem_map.mp h
        exact .inl ⟨i, rfl⟩
      · cases h
    · obtain ⟨i, -, rfl⟩ := List.mem_map.mp h
      exact .inr ⟨i, rfl⟩

theorem of_mem_updateEffectiveEvents {activeCount now : ℕ}
    (h : e ∈ r.updateEffectiveEvents activeCount now) :
    (∃ i, e = .rateRefreshed i) ∨ ∃ i, e = .graceArmed i now := by
  unfold updateEffectiveEvents at h
  split at h
  · cases h
  · rcases List.mem_append.mp h with h | h
    · obtain ⟨i, -, rfl⟩ := List.mem_map.mp h
      exact .inl ⟨i, rfl⟩
    · obtain ⟨i, -, rfl⟩ := List.mem_map.mp h
      exact .inr ⟨i, rfl⟩

theorem of_mem_reconcileEvents {now : ℕ} {enabled : Bool} (h : e ∈ r.reconcileEvents now enabled) :
    (∃ i, e = .rateRefreshed i) ∨ ∃ i, e = .testQueued i (testFlag enabled) := by
  unfold reconcileEvents at h
  rcases List.mem_append.mp h with h | h
  · split at h
    · obtain ⟨i, -, rfl⟩ := List.mem_map.mp h
      exact .inl ⟨i, rfl⟩
    · cases h
  · obtain ⟨i, -, rfl⟩ := List.mem_map.mp h
    exact .inr ⟨i, rfl⟩

theorem of_mem_publishAllEvents {command : AllCommand} {mask : TrackerMask}
    (h : e ∈ r.publishAllEvents command mask) : e = .allPublished command mask ∨
      (e = .fenced ∧ command ≠ .off) ∨ (∃ i, e = .graceCleared i) ∨
        ∃ i, e = .testQueued i command.flag := by
  unfold publishAllEvents at h
  simp only [List.cons_append, List.mem_cons, List.mem_append] at h
  rcases h with h | (h | h) | h
  · exact .inl h
  · cases command with
    | on tps => exact .inr (.inl ⟨List.mem_singleton.mp h, nofun⟩)
    | off => cases h
  · obtain ⟨i, -, rfl⟩ := List.mem_map.mp h
    exact .inr (.inr (.inl ⟨i, rfl⟩))
  · obtain ⟨i, -, rfl⟩ := List.mem_map.mp h
    exact .inr (.inr (.inr ⟨i, rfl⟩))

theorem of_mem_pingEvents {p : PingPacket} (h : e ∈ r.pingEvents p) :
    e = .reanchored p.trackerId ∨ e = .graceArmed p.trackerId r.tdma.uptime ∨
      e = .womReplied p.trackerId p.ackFlag p.value p.token p.counter ∨
        e = .commandConfirmed p.trackerId p.ackFlag := by
  unfold pingEvents at h
  split at h
  · cases h
  · simp only [List.mem_append, mem_eventIf] at h
    rcases h with ((⟨-, rfl⟩ | ⟨-, rfl⟩) | ⟨-, rfl⟩) | ⟨-, rfl⟩
    · exact .inl rfl
    · exact .inr (.inl rfl)
    · exact .inr (.inr (.inl rfl))
    · exact .inr (.inr (.inr rfl))

theorem of_mem_observeEvents {onOwnPipe : Bool} {trackerId : ℕ}
    (h : e ∈ r.observeEvents onOwnPipe trackerId) :
    e = .scheduler (.observed trackerId r.tdma.uptime) := (mem_eventIf.mp h).2

end PolicyEvents

end SlimeReceiver
