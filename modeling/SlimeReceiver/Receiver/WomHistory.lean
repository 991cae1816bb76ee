import SlimeReceiver.Receiver.Steps

/-! # WOM transactions over a history

* **`WomView`** — the transaction of a tracker and whether its command is still pending, as a view
  that follows the events.
* **`Completed`** — the exchange that completes a request.
* **`TransactionSince`** — what the events since a request say about its transaction, and
  `TransactionSince.follow`, that every event keeps it. -/

namespace SlimeReceiver

open Receiver

/-! ## The view -/

/-- The transaction of a tracker. -/
structure WomView where
  slot : WomSlot
  /-- The pending command of the tracker is `ESB_PONG_FLAG_WOM_CONTROL`. -/
  pending : Bool

namespace WomView

/-- No transaction. -/
def zero : WomView := ⟨.zero, false⟩

/-- The PONG carries the pending request and is the first to do so. -/
def armedBy (v : WomView) (pong : Pong) : Bool :=
  pong.command == pongFlagWomControl && v.pending && v.slot.womToken != 0 &&
    pong.payload == .wom v.slot.womMinutes v.slot.womToken && !v.slot.womAdvertised

/-- The reply belongs to the pending transaction. -/
def matchedBy (v : WomView) (token : BitVec 16) (counter : BitVec 8) : Bool :=
  v.pending && token != 0 && token == v.slot.womToken && !v.slot.womComplete &&
    v.slot.womAdvertised && counter != v.slot.womFirstPingCounter

/-- The reply completes the transaction. -/
def completedBy (v : WomView) (flag : BitVec 8) (value token : BitVec 16) (counter : BitVec 8) :
    Bool :=
  v.matchedBy token counter && (womSuccess flag v.slot.womMinutes value || womFailure flag value)

/-- A query with this token finds the transaction displaced. -/
def displacedAt (v : WomView) (token : BitVec 16) : Bool :=
  v.slot.womToken == token && !v.slot.womComplete && !v.pending

/-- The cancellation concerns the transaction of tracker `id`. -/
def cancelledBy (id : ℕ) (v : WomView) (mask : TrackerMask) (token : BitVec 16) : Bool :=
  hasBit mask id && token != 0 && v.slot.womToken == token

/-- The transaction after a first advertisement. -/
def advertise (v : WomView) (counter : BitVec 8) : WomView :=
  { v with slot := { v.slot with
      womFirstPingCounter := counter
      womAdvertised := true } }

/-- The transaction after a reply that completes it. -/
def complete (v : WomView) (flag : BitVec 8) (value : BitVec 16) : WomView where
  slot := { v.slot with
    womMinutes := if womSuccess flag v.slot.womMinutes value then value else 0
    womError := if womFailure flag value then value else 0
    womComplete := true }
  pending := false

/-- What an event does to the transaction of tracker `id`. -/
def follow (id : ℕ) (v : WomView) : ReceiverEvent → WomView
  | .womRequested mask token minutes =>
    if hasBit mask id then ⟨.start token minutes, true⟩ else v
  | .ponged _ pong =>
    if pong.trackerId == id && v.armedBy pong then v.advertise pong.counter else v
  | .womReplied j flag value token counter =>
    if j == id && v.completedBy flag value token counter then v.complete flag value else v
  | .womReported j token _ _ =>
    if j == id && v.displacedAt token then { v with slot := v.slot.displace } else v
  | .womCancelled mask token => if v.cancelledBy id mask token then zero else v
  | .commandQueued j _ | .testTargeted j _ _ | .testQueued j _ =>
    if j = id then { v with pending := false } else v
  | .scheduler (.forgotten j) => if j = id then zero else v
  | _ => v

theorem followsOnlyResets (id : ℕ) : FollowsOnlyResets (follow id) := by
  intro v e he
  cases e with
  | forgotten j => exact absurd rfl (he j)
  | _ => rfl

end WomView

namespace Receiver

variable {id : ℕ} {r r' : Receiver} {op : ReceiverOp} {es : List ReceiverEvent}

/-- The transaction of tracker `id`. -/
def womView (id : ℕ) (r : Receiver) : WomView where
  slot := r.wom id
  pending := (r.command id).trackerRemoteCommand == pongFlagWomControl

/-- A command slot whose flag is not changed to or from `ESB_PONG_FLAG_WOM_CONTROL`. -/
theorem womView_of_pending (hwom : r'.wom id = r.wom id)
    (hpending : (r'.command id).trackerRemoteCommand = pongFlagWomControl ↔
      (r.command id).trackerRemoteCommand = pongFlagWomControl) : r'.womView id = r.womView id := by
  unfold womView
  rw [hwom]
  congr 1
  rw [Bool.eq_iff_iff, beq_iff_eq, beq_iff_eq]
  exact hpending

theorem womView_resetSlot (r : Receiver) (j : ℕ) : (r.resetSlot j).womView id =
    (r.womView id).follow id (.scheduler (.forgotten j)) := by
  by_cases hj : j = id
  · subst hj
    simp only [WomView.follow, if_true, resetSlot, dropEvidence, womView, Function.update_self]
    rfl
  · simp only [WomView.follow, if_neg hj, resetSlot, dropEvidence, womView,
      Function.update_of_ne (Ne.symm hj)]

/-- A stored command that is not a WOM command ends the pending one. -/
theorem womView_withCommand (j : ℕ) (slot : CommandSlot)
    (hflag : slot.trackerRemoteCommand ≠ pongFlagWomControl) :
    (r.withCommand j slot).womView id =
      if j = id then { r.womView id with pending := false } else r.womView id := by
  by_cases hj : j = id
  · subst hj
    rw [if_pos rfl]
    simp only [womView, withCommand, Function.update_self]
    congr 1
    exact beq_eq_false_iff_ne.mpr hflag
  · simp only [if_neg hj, womView, withCommand, Function.update_of_ne (Ne.symm hj)]

/-! ### The calls -/

theorem womView_issueWom (hid : id < maxTrackers) (mask : TrackerMask) (minutes : BitVec 16) :
    (r.issueWom mask minutes).womView id = (r.womView id).follow id
      (.womRequested mask (nextWomToken r.womNextToken) minutes) := by
  simp only [issueWom, womView, eachBelow_of_lt hid, WomView.follow]
  split <;> rfl

theorem womView_womCancel (hid : id < maxTrackers) (mask : TrackerMask) (token : BitVec 16) :
    (r.womCancel mask token).womView id =
      (r.womView id).follow id (.womCancelled mask token) := by
  have hsame : (r.womView id).cancelledBy id mask token = r.womCancels mask token id := rfl
  simp only [WomView.follow, hsame]
  simp only [womCancel, womView, eachBelow_of_lt hid]
  cases r.womCancels mask token id with
  | false => rfl
  | true =>
    by_cases hpending : (r.command id).trackerRemoteCommand = pongFlagWomControl
    · simp [hpending, WomView.zero, pongFlagNormal, pongFlagWomControl]
    · simp [hpending, WomView.zero]

/-- A query reports a complete transaction and ends a displaced one. -/
theorem womView_womResult (j : ℕ) (token : BitVec 16) :
    (r.womResult j token).1.womView id = ((r.womResult j token).2.map fun q =>
      ReceiverEvent.womReported j token q.1 q.2).toList.foldl (WomView.follow id) (r.womView id) := by
  have hdisplaced : r.womDisplaced j token = (r.womView j).displacedAt token := by
    simp only [womDisplaced, WomView.displacedAt, womView]
    rfl
  by_cases hvalid : j ≥ maxTrackers ∨ token = 0
  · rw [womResult, if_pos hvalid]
    rfl
  · rw [womResult, if_neg hvalid]
    cases hends : r.womDisplaced j token with
    | false =>
      -- The transaction stays as it is, reported or not.
      have hstays : (r.womView id).follow id (.womReported j token (r.wom j).womMinutes
          (r.wom j).womError) = r.womView id := by
        by_cases hj : j = id
        · subst hj
          rw [WomView.follow, ← hdisplaced, hends, Bool.and_false]
          rfl
        · rw [WomView.follow, beq_false_of_ne hj]
          rfl
      simp only [Bool.false_eq_true, if_false, Function.update_eq_self]
      split
      · exact hstays.symm
      · rfl
    | true =>
      have htoken : (r.wom j).displace.womToken = token := by
        simp only [womDisplaced, Bool.and_eq_true, beq_iff_eq] at hends
        exact hends.1.1
      have hcomplete : (r.wom j).displace.womComplete = true := rfl
      simp only [if_true, if_pos (And.intro htoken hcomplete)]
      show _ = (r.womView id).follow id (.womReported j token 0 ecanceled)
      by_cases hj : j = id
      · subst hj
        rw [WomView.follow, ← hdisplaced, hends, beq_self_eq_true]
        simp only [womView, Function.update_self]
        rfl
      · rw [WomView.follow, beq_false_of_ne hj]
        simp only [womView, Function.update_of_ne (Ne.symm hj)]
        rfl

/-! ### PINGs -/

theorem pongFor_eq {env : PongEnvironment} {p : PingPacket} {pong : Pong}
    (h : r.pongFor env p = some pong) :
    pong = ⟨p.trackerId, p.counter, r.ackCommand env p, r.pongPayload (r.ackCommand env p) p.trackerId⟩ := by
  unfold pongFor at h
  simp only [] at h
  split at h
  · cases h
  · split at h
    · cases h
    · split at h
      · cases h
      · exact (Option.some.inj h).symm

/-- An OTA relay that aborts answers with its own command. -/
theorem ackCommand_of_aborting {env : PongEnvironment} {p : PingPacket} (h : env.otaAborting = true) :
    r.ackCommand env p ≠ pongFlagWomControl := by
  unfold ackCommand
  split
  · decide
  · unfold selectPongCommand
    simp only [h, if_true]
    split
    · decide
    · decide

theorem armsWom_eq {env : PongEnvironment} {p : PingPacket} {pong : Pong}
    (h : r.pongFor env p = some pong) :
    r.armsWom env pong = (r.womView p.trackerId).armedBy pong := by
  have hpong := pongFor_eq h
  cases haborting : env.otaAborting with
  | false =>
    rw [hpong]
    simp only [armsWom, haborting, Bool.not_false, Bool.true_and]
    rfl
  | true =>
    have hcommand : (pong.command == pongFlagWomControl) = false := by
      rw [hpong]
      exact beq_false_of_ne (ackCommand_of_aborting haborting)
    simp [armsWom, WomView.armedBy, haborting, hcommand]

/-- The answer to a PING advertises a pending request once. -/
theorem womView_ackPing (env : PongEnvironment) (p : PingPacket) :
    (r.ackPing env p).1.womView id = ((r.ackPing env p).2.map
      (ReceiverEvent.ponged p.ackFlag)).toList.foldl (WomView.follow id) (r.womView id) := by
  unfold ackPing
  cases hpong : r.pongFor env p with
  | none => rfl
  | some pong =>
    have harms := armsWom_eq hpong
    have hown : pong.trackerId = p.trackerId := by rw [pongFor_eq hpong]
    have hcounter : pong.counter = p.counter := by rw [pongFor_eq hpong]
    show _ = (r.womView id).follow id (.ponged p.ackFlag pong)
    by_cases hid : p.trackerId = id
    · subst hid
      rw [WomView.follow, hown, beq_self_eq_true, Bool.true_and, ← harms, hcounter]
      simp only []
      split
      · simp only [womView, Function.update_self]
        rfl
      · rfl
    · rw [WomView.follow, hown, beq_false_of_ne hid]
      simp only []
      split
      · simp only [womView, Function.update_of_ne (Ne.symm hid)]
        rfl
      · rfl

theorem parkTest_pending (slot : CommandSlot) :
    slot.parkTest.trackerRemoteCommand = pongFlagWomControl ↔
      slot.trackerRemoteCommand = pongFlagWomControl := by
  unfold CommandSlot.parkTest
  split
  case isTrue htest =>
    constructor
    · intro h
      exact absurd h (show pongFlagNormal ≠ pongFlagWomControl by decide)
    · intro h
      rw [h] at htest
      exact absurd htest (by decide)
  case isFalse => exact Iff.rfl

theorem womView_recoverTracker (j : ℕ) : (r.recoverTracker j).womView id = r.womView id := by
  unfold recoverTracker
  split
  · refine womView_of_pending rfl ?_
    by_cases hj : j = id
    · subst hj
      simp only [testAllInvalidateTracker, armGrace, withCommand, Function.update_self]
      exact parkTest_pending _
    · simp only [testAllInvalidateTracker, armGrace, withCommand,
        Function.update_of_ne (Ne.symm hj)]
  · rfl

theorem womView_trackPing (p : PingPacket) : (r.trackPing p).1.womView id = r.womView id := by
  unfold trackPing
  simp only []
  split <;> first | rfl | exact womView_recoverTracker _

/-- A reply completes the transaction it belongs to. -/
theorem womView_remoteWomReceive (p : PingPacket) :
    (r.remoteWomReceive p.trackerId p.ackFlag p.value p.token p.counter).womView id =
      if p.ackFlag = pingFlagWomResult ∨ p.ackFlag = pingFlagWomError then
        (r.womView id).follow id (.womReplied p.trackerId p.ackFlag p.value p.token p.counter)
      else r.womView id := by
  have hmatches : (r.womView p.trackerId).completedBy p.ackFlag p.value p.token p.counter = true ↔
      r.womReplyMatches p.trackerId p.token p.counter = true ∧
        (womSuccess p.ackFlag (r.wom p.trackerId).womMinutes p.value ||
          womFailure p.ackFlag p.value) = true := by
    rw [WomView.completedBy, Bool.and_eq_true]
    rfl
  unfold remoteWomReceive
  by_cases hflag : p.ackFlag = pingFlagWomResult ∨ p.ackFlag = pingFlagWomError
  · by_cases hcompletes :
        (r.womView p.trackerId).completedBy p.ackFlag p.value p.token p.counter = true
    · have hboth := hmatches.mp hcompletes
      rw [if_pos hflag, if_pos ⟨hflag, hboth.1, hboth.2⟩, WomView.follow]
      by_cases hid : p.trackerId = id
      · subst hid
        rw [hcompletes, beq_self_eq_true]
        simp only [womView, Function.update_self]
        rfl
      · rw [beq_false_of_ne hid]
        simp only [womView, Function.update_of_ne (Ne.symm hid)]
        rfl
    · have hneither : ¬((p.ackFlag = pingFlagWomResult ∨ p.ackFlag = pingFlagWomError) ∧
          r.womReplyMatches p.trackerId p.token p.counter = true ∧
            (womSuccess p.ackFlag (r.wom p.trackerId).womMinutes p.value ||
              womFailure p.ackFlag p.value) = true) := fun h => hcompletes (hmatches.mpr h.2)
      rw [if_pos hflag, if_neg hneither, WomView.follow]
      by_cases hid : p.trackerId = id
      · subst hid
        rw [Bool.eq_false_of_not_eq_true hcompletes, Bool.and_false]
        rfl
      · rw [beq_false_of_ne hid]
        rfl
  · rw [if_neg hflag, if_neg fun h => hflag h.1]

theorem womView_confirmCommand (p : PingPacket) :
    (r.confirmCommand p).womView id = r.womView id := by
  unfold confirmCommand
  split
  case isTrue hechoes =>
    -- The echoed command is not a WOM command, so none was pending.
    have hother : (r.command p.trackerId).trackerRemoteCommand ≠ pongFlagWomControl := by
      simp only [echoesCommand, Bool.and_eq_true, bne_iff_ne, beq_iff_eq] at hechoes
      rw [hechoes.1.1.2]
      exact hechoes.1.1.1.1.1.2
    have hkept : ∀ r₁ : Receiver, r₁.wom = r.wom → r₁.command = (r.withCommand p.trackerId
        { r.command p.trackerId with trackerRemoteCommand := pongFlagNormal }).command →
        r₁.womView id = r.womView id := by
      intro r₁ hwom hcommand
      refine womView_of_pending (congrFun hwom id) ?_
      rw [hcommand, withCommand]
      by_cases hid : p.trackerId = id
      · subst hid
        simp only [Function.update_self]
        exact iff_of_false (by decide) hother
      · simp only [Function.update_of_ne (Ne.symm hid)]
    simp only []
    split
    · exact hkept _ rfl rfl
    · exact hkept _ rfl rfl
  case isFalse => rfl

theorem womView_processPing (p : PingPacket) : (r.processPing p).womView id =
    if p.ackFlag = pingFlagWomResult ∨ p.ackFlag = pingFlagWomError then
      (r.womView id).follow id (.womReplied p.trackerId p.ackFlag p.value p.token p.counter)
    else r.womView id := by
  have hconfirm : (Receiver.processPing p r).womView id =
      (r.remoteWomReceive p.trackerId p.ackFlag p.value p.token p.counter).womView id :=
    womView_confirmCommand p
  rw [womView_remoteWomReceive] at hconfirm
  exact hconfirm

theorem womView_receivePing (p : PingPacket) :
    (r.receivePing p).womView id = (r.pingEvents p).foldl (WomView.follow id) (r.womView id) := by
  have hpipe : (r.notePipe p).womView id = r.womView id := by
    rw [notePipe_eq]
    rfl
  unfold receivePing pingEvents
  by_cases hid : p.trackerId ≥ maxTrackers
  · simp [hid]
  · by_cases hcrc : p.crcValid = true
    · simp only [hid, hcrc, if_false, Bool.not_true, Bool.false_eq_true, or_false, reduceCtorEq,
        List.foldl_append, foldl_eventIf]
      have hearly : ∀ v : WomView, v.follow id (.reanchored p.trackerId) = v ∧
          v.follow id (.graceArmed p.trackerId r.tdma.uptime) = v ∧
          v.follow id (.commandConfirmed p.trackerId p.ackFlag) = v := fun _ => ⟨rfl, rfl, rfl⟩
      simp only [(hearly _).1, (hearly _).2.1, (hearly _).2.2, ite_self]
      split
      case isTrue hprocessed =>
        rw [womView_processPing, womView_trackPing, hpipe]
        simp only [hprocessed, true_and]
      case isFalse hdropped =>
        rw [womView_trackPing, hpipe]
        simp only [hdropped, Bool.false_eq_true, false_and, if_false]
    · simp only [hid, hcrc, if_false, Bool.not_false, if_true, or_true, noteCrcError]
      exact hpipe

/-! ### The policy -/

/-- Test flags queued for idle trackers displace no WOM command. -/
theorem foldl_testQueued (hid : id < maxTrackers) (p : ℕ → Bool) (flag : BitVec 8) {v : WomView}
    (hidle : p id = true → v.pending = false) :
    ((trackersWhere p).map fun j => ReceiverEvent.testQueued j flag).foldl (WomView.follow id) v =
      v := by
  rw [foldl_trackersWhere p (fun j => ReceiverEvent.testQueued j flag) hid
    (fun j hj v => if_neg hj) v]
  split
  case isTrue hqueued =>
    rw [WomView.follow, if_pos rfl, ← hidle hqueued]
  case isFalse => rfl

/-- The policy changes command slots without touching a WOM command. -/
theorem womView_eachBelow {f : ℕ → CommandSlot → CommandSlot} (hwom : r'.wom = r.wom)
    (hcommand : r'.command = eachBelow maxTrackers f r.command)
    (hf : ∀ i, (f i (r.command i)).trackerRemoteCommand = pongFlagWomControl ↔
      (r.command i).trackerRemoteCommand = pongFlagWomControl) : r'.womView id = r.womView id := by
  refine womView_of_pending (congrFun hwom id) ?_
  rw [hcommand]
  by_cases hid : id < maxTrackers
  · rw [eachBelow_of_lt hid]
    exact hf id
  · rw [eachBelow_of_le (not_lt.mp hid)]

/-- An idle slot that takes a test flag has no WOM command before or after. -/
theorem pending_iff_of_normal {slot slot' : CommandSlot} {flag : BitVec 8}
    (hflag : flag ≠ pongFlagWomControl) (hidle : slot.trackerRemoteCommand = pongFlagNormal)
    (hslot' : slot'.trackerRemoteCommand = flag) :
    slot'.trackerRemoteCommand = pongFlagWomControl ↔
      slot.trackerRemoteCommand = pongFlagWomControl := by
  rw [hslot', hidle]
  exact iff_of_false hflag (by decide)

theorem testFlag_ne_womControl (enabled : Bool) : testFlag enabled ≠ pongFlagWomControl := by
  cases enabled <;> decide

theorem womView_reconcile (hid : id < maxTrackers) (now : ℕ) (enabled : Bool) :
    (r.testAllReconcile now enabled).womView id =
      (r.reconcileEvents now enabled).foldl (WomView.follow id) (r.womView id) := by
  have hrates : ∀ l : List ℕ, ∀ v : WomView,
      (l.map ReceiverEvent.rateRefreshed).foldl (WomView.follow id) v = v := by
    intro l v
    refine foldl_eq_self (fun e he v => ?_) v
    obtain ⟨j, -, rfl⟩ := List.mem_map.mp he
    rfl
  have hfold : (r.reconcileEvents now enabled).foldl (WomView.follow id) (r.womView id) =
      r.womView id := by
    rw [reconcileEvents, List.foldl_append]
    have hfirst : (if enabled then (r.reconcileQueues now).map ReceiverEvent.rateRefreshed
        else []).foldl (WomView.follow id) (r.womView id) = r.womView id := by
      split
      · exact hrates _ _
      · rfl
    rw [hfirst, reconcileQueues]
    split
    · refine foldl_testQueued hid _ _ fun hqueued => ?_
      simp only [Bool.and_eq_true, reconcileEligible, beq_iff_eq] at hqueued
      rw [womView, hqueued.1.2]
      rfl
    · rfl
  rw [hfold, testAllReconcile]
  split
  · refine womView_eachBelow rfl rfl fun i => ?_
    unfold reconcileTracker
    split
    case isTrue hqueued =>
      simp only [Bool.and_eq_true, reconcileEligible, beq_iff_eq] at hqueued
      exact pending_iff_of_normal (testFlag_ne_womControl enabled) hqueued.1.2 rfl
    case isFalse => exact Iff.rfl
  · rfl

theorem allFlag_ne_womControl (command : AllCommand) :
    command.flag ≠ pongFlagWomControl := by
  cases command with
  | on tps => exact testFlag_ne_womControl true
  | off => exact testFlag_ne_womControl false

theorem womView_publishAll (hid : id < maxTrackers) (command : AllCommand) (mask : TrackerMask) :
    (r.publishAll command mask).womView id =
      (r.publishAllEvents command mask).foldl (WomView.follow id) (r.womView id) := by
  have hcleared : ∀ (p : ℕ → Bool) (v : WomView),
      ((trackersWhere p).map ReceiverEvent.graceCleared).foldl (WomView.follow id) v = v := by
    intro p v
    refine foldl_eq_self (fun e he v => ?_) v
    obtain ⟨j, -, rfl⟩ := List.mem_map.mp he
    rfl
  have hinstall : ∀ v : WomView, (installEvents command).foldl (WomView.follow id) v = v := by
    intro v
    cases command <;> rfl
  have hfold : (r.publishAllEvents command mask).foldl (WomView.follow id) (r.womView id) =
      r.womView id := by
    rw [foldl_publishAllEvents, hcleared, hinstall, allQueues]
    refine foldl_testQueued hid _ _ fun hqueued => ?_
    simp only [Bool.and_eq_true, beq_iff_eq] at hqueued
    show ((r.command id).trackerRemoteCommand == pongFlagWomControl) = false
    rw [hqueued.1.2]
    rfl
  have hwom : (r.publishAll command mask).wom = r.wom := by
    rw [publishAll_eq]
    cases command <;> rfl
  rw [hfold]
  refine womView_of_pending (congrFun hwom id) ?_
  have hflag := allFlag_ne_womControl command
  cases command <;>
  · simp only [publishAll, publishTestFlagMask, installPolicy, esbAutoLossInvalidate, dropEvidence,
      eachBelow_of_lt hid]
    split
    case isTrue hqueued =>
      simp only [Bool.and_eq_true, beq_iff_eq] at hqueued
      exact pending_iff_of_normal hflag hqueued.1.2 rfl
    case isFalse => exact Iff.rfl

theorem womView_noteLayout (hid : id < maxTrackers) (oldMask newMask : TrackerMask) (now : ℕ) :
    (r.testAllNoteLayout oldMask newMask now).womView id = r.womView id := by
  unfold testAllNoteLayout
  split
  · rfl
  · refine womView_of_pending rfl ?_
    simp only [eachBelow_of_lt hid]
    split <;> exact Iff.rfl

theorem womView_updateEffective (hid : id < maxTrackers) (activeCount now : ℕ) :
    (r.testAllUpdateEffective activeCount now).womView id = r.womView id := by
  unfold testAllUpdateEffective
  split
  · rfl
  · split
    · rfl
    · refine womView_of_pending rfl ?_
      simp only [eachBelow_of_lt hid]
      split <;> exact Iff.rfl

theorem reservedFlag_womControl {flag : BitVec 8} (h : reservedFlag flag = false) :
    flag ≠ pongFlagWomControl := by
  rintro rfl
  exact absurd h (by decide)

/-- **The transaction at a step.** It follows what the step reports. -/
theorem womView_step (hid : id < maxTrackers) (h : ReceiverRel r op r' es) :
    r'.womView id = es.foldl (WomView.follow id) (r.womView id) := by
  have hresets := WomView.followsOnlyResets id
  cases h with
  | stutter | allGuard | allToken | allScan | allAbort | allRelease | reconcile | reconcileRead
  | resetAllStats | autoLossFence | autoLossInvalidate | rxDiscontinuity => rfl
  | plain _ top t tes hplain hstep =>
    rw [foldl_scheduler_eq_self hresets hstep hplain.not_isRoster]
    rfl
  | lossTick env t tes hstep =>
    rw [foldl_scheduler_eq_self hresets hstep fun h => h]
    rfl
  | lossTickRebase env t tes hstep =>
    rw [List.foldl_append, foldl_scheduler_eq_self hresets hstep fun h => h]
    rfl
  | pass collecting t tes hstep =>
    rw [foldl_scheduler_eq_self hresets hstep fun h => h]
    rfl
  | passPublished collecting t tes p hstep =>
    rw [List.foldl_append, foldl_scheduler_eq_self hresets hstep fun h => h]
    rfl
  | roster _ top t tes => exact view_resetSlots hresets womView_resetSlot tes _
  | clear written t tes => exact view_resetSlots hresets womView_resetSlot tes _
  | data j seq onOwnPipe isStatus =>
    have hquiet : ∀ e ∈ r.sequenceEvent j seq :: (r.observeEvents onOwnPipe j ++ eventIf
        ((r.checkPacketSequence j seq).2 = .restart ∧ r.testAll.stateValid)
        (.graceArmed j r.tdma.uptime)), ∀ v : WomView, v.follow id e = v := by
      intro e he v
      rcases List.mem_cons.mp he with rfl | he
      · unfold sequenceEvent
        cases (r.checkPacketSequence j seq).2 <;> rfl
      · rcases List.mem_append.mp he with he | he
        · rw [of_mem_observeEvents he]
          rfl
        · rw [(mem_eventIf.mp he).2]
          rfl
    rw [foldl_eq_self hquiet]
    have hobserve : (((r.checkPacketSequence j seq).1.observe onOwnPipe j .data).forwardData j
        (r.checkPacketSequence j seq).2 isStatus).womView id =
          ((r.checkPacketSequence j seq).1.observe onOwnPipe j .data).womView id := by
      unfold forwardData
      split
      · rfl
      · split <;> split <;> rfl
    rw [hobserve, checkPacketSequence_eq, observe]
    split <;> rfl
  | ackPing env p => exact womView_ackPing env p
  | ping p =>
    have hobserve : ∀ e ∈ r.observeEvents (p.crcValid && p.onOwnPipe) p.trackerId,
        ∀ v : WomView, v.follow id e = v := by
      intro e he
      rw [of_mem_observeEvents he]
      exact fun _ => rfl
    rw [List.foldl_append, foldl_eq_self hobserve, ← womView_receivePing]
    unfold observe
    split <;> rfl
  | womRequest => exact womView_issueWom hid _ _
  | womResult j token => exact womView_womResult j token
  | womCancel mask token => exact womView_womCancel hid mask token
  | commandQueued _ j flag slot _ hflag hslot =>
    exact womView_withCommand j slot (hslot ▸ reservedFlag_womControl hflag)
  | clearOtaAbort j _ hpending =>
    refine womView_of_pending rfl ?_
    by_cases hj : j = id
    · subst hj
      simp only [setCommandFlag, withCommand, Function.update_self]
      rw [hpending]
      exact iff_of_false (by decide) (by decide)
    · simp only [setCommandFlag, withCommand, Function.update_of_ne (Ne.symm hj)]
  | testTargeted _ j tps enabled =>
    exact womView_withCommand j { r.command j with
      trackerTestOnTps := tps
      trackerRemoteCommand := testFlag enabled } (testFlag_ne_womControl enabled)
  | allPublish command token mask => exact womView_publishAll hid command mask
  | noteLayout oldMask newMask activeCount now =>
    have hquiet : ∀ e ∈ r.noteLayoutEvents oldMask newMask now, ∀ v : WomView, v.follow id e = v := by
      intro e he
      rcases of_mem_noteLayoutEvents he with ⟨j, rfl⟩ | ⟨j, rfl⟩ <;> exact fun _ => rfl
    rw [foldl_eq_self hquiet]
    exact womView_noteLayout hid oldMask newMask now
  | updateEffective activeCount now =>
    have hquiet : ∀ e ∈ r.updateEffectiveEvents activeCount now, ∀ v : WomView, v.follow id e = v := by
      intro e he
      rcases of_mem_updateEffectiveEvents he with ⟨j, rfl⟩ | ⟨j, rfl⟩ <;> exact fun _ => rfl
    rw [foldl_eq_self hquiet]
    exact womView_updateEffective hid activeCount now
  | reconcilePublish now enabled => exact womView_reconcile hid now enabled

/-- The transaction of a tracker follows the events. -/
def womTrackerView (hid : id < maxTrackers) : EventSystem.View receiverSystem WomView where
  view := womView id
  follow := WomView.follow id
  step _ _ _ _ h := womView_step hid (receiverStep_rel h)

end Receiver

end SlimeReceiver
