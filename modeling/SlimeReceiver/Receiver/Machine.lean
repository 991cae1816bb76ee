import SlimeReceiver.Link.Ping
import SlimeReceiver.Tdma.Machine

/-! # The receiver as a system

The scheduler, the radio and event interrupts, the console and HID threads and the test-all policy
together. Each critical section, and each atomic access made outside one, is one step; the steps
interleave freely, except where a mutex is held: `tracker_store_lock` (the `storeTask` of the
scheduler and the `policyTask`) and `test_all_mutex` (the `broadcastTask`).

* **`ReceiverOp`** — the steps; **`ReceiverEvent`** — what they report.
* **`receiverStep`**, **`receiverSystem`** — the system. -/

namespace SlimeReceiver

open Function (update)

/-- What a loss tick reads outside this model. -/
structure TickEnvironment where
  /-- No radio fault, channel change, pairing, clearing or OTA transfer. -/
  idle : Bool
  collecting : Bool
  radioOccupied : Bool

/-- The steps of the receiver. -/
inductive ReceiverOp
  /-- Time passes. -/
  | advance (ms : ℕ)
  | readClock
  | update
  | callRecalculate
  | pass (collecting : Bool)
  | lossTick (env : TickEnvironment)
  /-- The critical section of `esb_reset_all_stats`, and the part after it. -/
  | resetAllStats
  | resetLossStats
  | addPair (addr : ℕ) (written : Bool)
  | popPair (written : Bool)
  | clear (written : Bool)
  | restoreStore (count : ℕ) (addresses : ℕ → ℕ)
  /-- A data packet: a 17-byte packet or a composite one that passed validation. -/
  | data (trackerId : ℕ) (sequence : BitVec 8) (onOwnPipe isStatus : Bool)
  /-- The radio interrupt answers a PING. -/
  | ackPing (env : Receiver.PongEnvironment) (p : PingPacket)
  /-- The event interrupt processes a PING. -/
  | ping (p : PingPacket)
  | autoLossFence
  | autoLossInvalidate
  | rxDiscontinuity
  | womRequest (target : ℕ) (minutes : BitVec 16) (scanStart : ℕ)
  | womResult (id : ℕ) (token : BitVec 16)
  | womCancel (mask : TrackerMask) (token : BitVec 16)
  | remoteCommand (trackerId : ℕ) (flag arg : BitVec 8)
  /-- One store of `esb_publish_flag_mask`, which runs outside any lock. -/
  | publishFlag (trackerId : ℕ) (flag : BitVec 8)
  /-- `SENS_SET` or `SENS_AUTO` queued for a tracker. -/
  | sensCommand (trackerId : ℕ) (auto : Bool)
  | clearOtaAbort (trackerId : ℕ)
  | testOn (trackerId : ℕ) (tps : BitVec 16)
  | testOff (trackerId : ℕ)
  /-- The steps of an all-target test command. -/
  | allGuard (command : AllCommand)
  | allToken
  | allScan
  | allPublish
  | allRelease
  /-- What follows a publication with members. -/
  | noteLayout
  | updateEffective
  /-- The steps of `test_all_reconcile(now)`. -/
  | reconcile (now : ℕ)
  | reconcileRead
  | reconcilePublish

/-- The visible events of the receiver. -/
inductive ReceiverEvent
  | scheduler (e : TdmaEvent)
  /-- A packet was accepted in order. -/
  | accepted (trackerId : ℕ) (sequence : BitVec 8)
  /-- A duplicate or an out-of-order packet was dropped. -/
  | dropped (trackerId : ℕ)
  /-- A packet was accepted whose sequence shows a restart. -/
  | restarted (trackerId : ℕ) (sequence : BitVec 8)
  /-- A PING showed a restart. -/
  | reanchored (trackerId : ℕ)
  | fenced
  /-- A blackout: a fence, and every received sequence starts over. -/
  | discontinuity
  | statsReset
  | graceArmed (trackerId now : ℕ)
  | graceCleared (trackerId : ℕ)
  /-- A targeted test command queued its flag and rate. -/
  | testTargeted (trackerId : ℕ) (flag : BitVec 8) (tps : BitVec 16)
  /-- `esb_clear` dropped the policy. -/
  | policyCleared
  | tokenDrawn
  | allPublished (command : AllCommand) (mask : TrackerMask)
  /-- The all-target command found itself superseded and returns 0. -/
  | allAborted
  /-- A flag was queued for the policy. -/
  | testQueued (trackerId : ℕ) (flag : BitVec 8)
  /-- The rate of a tracker was written for the policy. -/
  | rateRefreshed (trackerId : ℕ)
  | commandConfirmed (trackerId : ℕ) (flag : BitVec 8)
  /-- Another control command was queued. -/
  | commandQueued (trackerId : ℕ) (flag : BitVec 8)
  | womRequested (mask : TrackerMask) (token minutes : BitVec 16)
  /-- A PING with this flag was answered. -/
  | ponged (pingFlag : BitVec 8) (pong : Receiver.Pong)
  /-- A PING with a WOM result or error was processed. -/
  | womReplied (trackerId : ℕ) (flag : BitVec 8) (value token : BitVec 16) (counter : BitVec 8)
  | womReported (trackerId : ℕ) (token minutes error : BitVec 16)
  | womCancelled (mask : TrackerMask) (token : BitVec 16)
  deriving DecidableEq

/-- The event `e`, where the condition holds. -/
def eventIf (c : Prop) [Decidable c] (e : ReceiverEvent) : List ReceiverEvent := if c then [e] else []

@[simp] theorem mem_eventIf {c : Prop} [Decidable c] {e e' : ReceiverEvent} :
    e' ∈ eventIf c e ↔ c ∧ e' = e := by
  unfold eventIf
  split
  case isTrue hc => simp [hc]
  case isFalse hc => simp [hc]

namespace Receiver

/-- `tracker_store_lock` is free. -/
def storeFree (r : Receiver) : Bool := decide (r.tdma.storeTask = .idle ∧ r.policyTask = .idle)

/-- A step of the scheduler inside the receiver. -/
def stepTdma (op : TdmaOp) (r : Receiver) : Option (Receiver × List ReceiverEvent) :=
  (tdmaStep r.tdma op).map fun q => ({ r with tdma := q.1 }, q.2.map .scheduler)

/-! ## Slots and statistics -/

/-- The part of `tracker_slot_reset` that does not concern the scheduler. -/
def resetSlot (id : ℕ) (r : Receiver) : Receiver :=
  dropEvidence { r with
    sequence := update r.sequence id .zero
    ping := update r.ping id .zero
    command := update r.command id .zero
    wom := update r.wom id .zero
    testAll := { r.testAll with
      confirmedMask := clearBit r.testAll.confirmedMask id
      readyAfterMs := update r.testAll.readyAfterMs id 0 } }

/-- The trackers whose slots a step of the scheduler reset. -/
def forgottenIds (es : List TdmaEvent) : List ℕ :=
  es.filterMap fun e => match e with
    | .forgotten id => some id
    | _ => none

/-- A roster operation: the scheduler's part, then the slots it reset. -/
def stepRoster (op : TdmaOp) (r : Receiver) : Option (Receiver × List ReceiverEvent) :=
  (tdmaStep r.tdma op).map fun q =>
    ((forgottenIds q.2).foldl (fun r id => r.resetSlot id) { r with tdma := q.1 },
      q.2.map .scheduler)

/-- What `esb_clear` does to the policy before it resets the slots. -/
def clearPolicy (r : Receiver) : Receiver :=
  let superseded := testAllInvalidate
    { r with testAll := { r.testAll with generation := r.testAll.generation + 1 } }
  { superseded with testAll := { superseded.testAll with
      enabled := false
      requestedTps := 0
      effectiveTps := 0 } }

/-- `esb_clear` succeeds exactly when it leaves a forced recalculation behind. -/
def stepClear (written : Bool) (r : Receiver) : Option (Receiver × List ReceiverEvent) :=
  (stepRoster (.clear written) r).map fun q =>
    if q.1.tdma.storeTask = .idle then q
    else (q.1.clearPolicy, .policyCleared :: q.2)

/-- The critical section of `esb_reset_all_stats`. -/
def resetAllStats (r : Receiver) : Receiver :=
  { r.esbAutoLossInvalidate with
    sequence := eachBelow maxTrackers (fun _ slot => { slot with stats := .zero }) r.sequence
    ping := eachBelow maxTrackers (fun _ slot => { slot with
      pingCounterInitialized := false
      lastPingCounter := 0
      lastPongQueuedCounter := 0 }) r.ping }

/-! ## Packets -/

/-- What a packet classified as `result` reports. -/
def packetEvent (trackerId : ℕ) (sequence : BitVec 8) (result : SequenceResult) : ReceiverEvent :=
  match result with
  | .normal | .gap => .accepted trackerId sequence
  | .outOfOrder | .duplicate => .dropped trackerId
  | .restart => .restarted trackerId sequence

/-- What the classification of a packet reports. -/
def sequenceEvent (trackerId : ℕ) (sequence : BitVec 8) (r : Receiver) : ReceiverEvent :=
  packetEvent trackerId sequence (r.checkPacketSequence trackerId sequence).2

/-- The per-status counters start again once a status packet is forwarded. -/
def forwardStatus (trackerId : ℕ) (r : Receiver) : Receiver :=
  r.withSequence trackerId { r.sequence trackerId with
    stats := { (r.sequence trackerId).stats with
      statusReceived := 0
      statusLost := 0 } }

/-- What follows the classification: a restart arms the grace, a forwarded status packet takes the
per-status counters along. -/
def forwardData (trackerId : ℕ) (result : SequenceResult) (isStatus : Bool) (r : Receiver) :
    Receiver :=
  if result = .duplicate ∨ result = .outOfOrder then r
  else
    let recovered := if result = .restart ∧ r.testAll.stateValid then
      r.armGrace trackerId r.tdma.uptime else r
    if isStatus then recovered.forwardStatus trackerId else recovered

/-- The evidence of a packet on the tracker's own pipe reaches the scheduler. -/
def observe (onOwnPipe : Bool) (trackerId : ℕ) (evidence : ShadowEvidence) (r : Receiver) :
    Receiver :=
  if onOwnPipe then { r with tdma := r.tdma.tdmaShadowObserve trackerId evidence } else r

/-- What the evidence of a packet reports. -/
def observeEvents (onOwnPipe : Bool) (trackerId : ℕ) (r : Receiver) : List ReceiverEvent :=
  eventIf (onOwnPipe ∧ trackerId < r.tdma.roster.storedTrackers ∧ trackerId < maxTrackers)
    (.scheduler (.observed trackerId r.tdma.uptime))

/-- The data path of the event interrupt. -/
def receiveData (trackerId : ℕ) (sequence : BitVec 8) (onOwnPipe isStatus : Bool) (r : Receiver) :
    Receiver × List ReceiverEvent :=
  if trackerId < r.tdma.roster.storedTrackers then
    let checked := r.checkPacketSequence trackerId sequence
    ((checked.1.observe onOwnPipe trackerId .data).forwardData trackerId checked.2 isStatus,
      r.sequenceEvent trackerId sequence :: (r.observeEvents onOwnPipe trackerId ++
        eventIf (checked.2 = .restart ∧ r.testAll.stateValid)
          (.graceArmed trackerId r.tdma.uptime)))
  else (r, [])

/-- What processing a PING reports. -/
def pingEvents (p : PingPacket) (r : Receiver) : List ReceiverEvent :=
  if p.trackerId ≥ maxTrackers ∨ p.crcValid = false then []
  else
    let verdict := (r.ping p.trackerId).verdict p.counter r.tdma.uptime
    let tracked := (r.notePipe p).trackPing p
    eventIf (verdict = .restart) (.reanchored p.trackerId) ++
      eventIf ((verdict = .restart ∨ verdict = .timeout) ∧ r.testAll.stateValid)
        (.graceArmed p.trackerId r.tdma.uptime) ++
      eventIf (tracked.2 ∧ (p.ackFlag = pingFlagWomResult ∨ p.ackFlag = pingFlagWomError))
        (.womReplied p.trackerId p.ackFlag p.value p.token p.counter) ++
      eventIf (tracked.2 ∧ tracked.1.echoesCommand p) (.commandConfirmed p.trackerId p.ackFlag)

/-- The PING path of the event interrupt. -/
def receivePingPacket (p : PingPacket) (r : Receiver) : Receiver × List ReceiverEvent :=
  ((r.receivePing p).observe (p.crcValid && p.onOwnPipe) p.trackerId .ping,
    r.observeEvents (p.crcValid && p.onOwnPipe) p.trackerId ++ r.pingEvents p)

/-! ## Loss ticks and publications -/

/-- What a loss tick reads. -/
def tickInput (env : TickEnvironment) (r : Receiver) : LossTickInput where
  received := fun i => (r.sequence i).decisionReceived.toNat
  gaps := fun i => (r.sequence i).decisionGaps.toNat
  restarts := fun i => (r.sequence i).stats.restartEvents.toNat
  decisionReadyMask := r.decisionReadyMask
  subsystemsIdle := env.idle && !env.collecting && !(r.testAll.stateValid && r.testAll.enabled)
  collecting := env.collecting
  radioOccupied := env.radioOccupied
  testAllInForce := r.testAll.stateValid && r.testAll.enabled

/-- A tick that draws a common boundary: `esb_auto_loss_rebase`. -/
def tickRebases (t : Tdma) (es : List TdmaEvent) : Bool :=
  decide (TdmaEvent.ticked .rendezvous ∈ es) ||
    (decide (TdmaEvent.ticked .excluded ∈ es) && t.loss.decisionReady)

/-- `tdma_loss_controller_tick`. -/
def stepLossTick (env : TickEnvironment) (r : Receiver) : Option (Receiver × List ReceiverEvent) :=
  (tdmaStep r.tdma (.lossTick (r.tickInput env))).map fun q =>
    if tickRebases q.1 q.2 then
      (({ r with tdma := q.1 } : Receiver).esbAutoLossFence, q.2.map ReceiverEvent.scheduler ++ [ReceiverEvent.fenced])
    else ({ r with tdma := q.1 }, q.2.map .scheduler)

/-- The publication among the events of a pass. -/
def publicationIn (es : List TdmaEvent) : Option Publication :=
  es.findSome? fun e => match e with
    | .published p => some p
    | _ => none

/-- The policy's share of a publication. -/
def afterPublication (p : Publication) (oldMask : TrackerMask) (r : Receiver) : PolicyTask :=
  if p.members = 0 then .idle else .noteLayout oldMask r.tdma.layout.activeMask p.members p.time

/-- One pass of `tdma_recalculate`. -/
def stepPass (collecting : Bool) (r : Receiver) : Option (Receiver × List ReceiverEvent) :=
  (tdmaStep r.tdma (.pass ⟨r.testAll.enabled, collecting⟩)).map fun q =>
    let passed : Receiver := { r with tdma := q.1 }
    match publicationIn q.2 with
    | none => (passed, q.2.map .scheduler)
    | some p =>
      ({ passed.dropEvidence with
          policyTask := passed.afterPublication p r.tdma.layout.activeMask },
        q.2.map ReceiverEvent.scheduler ++ [ReceiverEvent.fenced])

/-! ## Remote commands -/

/-- Flags the generic command calls refuse, or that their callers refuse. -/
def reservedFlag (flag : BitVec 8) : Bool :=
  flag == pongFlagSetChannel || flag == pongFlagClearChannel || flag == pongFlagWomControl ||
    flag == pingFlagWomResult || flag == pingFlagWomError || flag == pongFlagTestModeOn ||
    flag == pongFlagTestModeOff

/-- `esb_send_remote_command_arg`. -/
def sendRemoteCommandArg (trackerId : ℕ) (flag arg : BitVec 8) (r : Receiver) : Receiver :=
  r.withCommand trackerId { r.command trackerId with
    pendingCmdArg := arg
    trackerRemoteCommand := flag }

/-- A command flag stored without arguments. -/
def setCommandFlag (trackerId : ℕ) (flag : BitVec 8) (r : Receiver) : Receiver :=
  r.withCommand trackerId { r.command trackerId with trackerRemoteCommand := flag }

/-- The flag of a sensitivity command. -/
def sensFlag (auto : Bool) : BitVec 8 := if auto then pongFlagSensAuto else pongFlagSensSet

/-- `esb_clear_remote_ota_abort`. -/
def clearRemoteOtaAbort (trackerId : ℕ) (r : Receiver) : Receiver :=
  if (r.command trackerId).trackerRemoteCommand = pongFlagOtaAbort then
    r.setCommandFlag trackerId pongFlagNormal
  else r

/-! ## The policy's steps -/

/-- The slots below `MAX_TRACKERS` with a property, in the order of the loops. -/
def trackersWhere (p : ℕ → Bool) : List ℕ := (List.range maxTrackers).filter p

/-- What `test_all_note_layout` reports. -/
def noteLayoutEvents (oldMask newMask : TrackerMask) (now : ℕ) (r : Receiver) : List ReceiverEvent :=
  if !r.testAll.stateValid then []
  else
    let joined := trackersWhere (hasBit (newMask &&& ~~~oldMask))
    (if r.testAll.enabled then joined.map .rateRefreshed else []) ++
      joined.map fun i => .graceArmed i now

/-- What `test_all_update_effective` reports. -/
def updateEffectiveEvents (activeCount now : ℕ) (r : Receiver) : List ReceiverEvent :=
  if (!r.testAll.stateValid || !r.testAll.enabled) = true ∨
      r.testAllEffective activeCount = r.testAll.effectiveTps then []
  else
    let active := trackersWhere (hasBit r.tdma.layout.activeMask)
    active.map ReceiverEvent.rateRefreshed ++ active.map fun i => .graceArmed i now

/-- The trackers a reconciliation queues a command for. -/
def reconcileQueues (now : ℕ) (r : Receiver) : List ℕ :=
  if r.testAll.stateValid && !r.testAll.broadcasting then
    trackersWhere fun i => r.reconcileEligible i && !withheld now (r.testAll.readyAfterMs i)
  else []

/-- What a reconciliation reports. -/
def reconcileEvents (now : ℕ) (enabled : Bool) (r : Receiver) : List ReceiverEvent :=
  (if enabled then (r.reconcileQueues now).map .rateRefreshed else []) ++
    (r.reconcileQueues now).map fun i => .testQueued i (testFlag enabled)

/-- The trackers an all-target command queues its flag for: addressed, idle and out of grace. -/
def allQueues (mask : TrackerMask) (r : Receiver) : List ℕ :=
  trackersWhere fun i => hasBit mask i && (r.command i).trackerRemoteCommand == pongFlagNormal &&
    !withheld r.tdma.uptime (clearExpired r.tdma.uptime (r.testAll.readyAfterMs i))

/-- Installing a policy that turns test mode on fences the decision evidence. -/
def installEvents : AllCommand → List ReceiverEvent
  | .on _ => [.fenced]
  | .off => []

/-- What the publication of an all-target command reports. -/
def publishAllEvents (command : AllCommand) (mask : TrackerMask) (r : Receiver) :
    List ReceiverEvent :=
  .allPublished command mask :: installEvents command ++
    ((trackersWhere fun i => !withheld r.tdma.uptime (r.testAll.readyAfterMs i)).map
      .graceCleared) ++
    (r.allQueues mask).map fun i => .testQueued i command.flag

/-- The final critical section of an all-target command. -/
def stepAllPublish (command : AllCommand) (token : BitVec 32) (mask : TrackerMask) (r : Receiver) :
    Receiver × List ReceiverEvent :=
  if r.testAll.generation = token then
    ({ r.publishAll command mask with broadcastTask := .idle }, r.publishAllEvents command mask)
  else ({ r with broadcastTask := .aborting }, [.allAborted])

end Receiver

open Receiver

/-- One step of the receiver. -/
def receiverStep (r : Receiver) : ReceiverOp → Option (Receiver × List ReceiverEvent)
  | .advance ms => r.stepTdma (.advance ms)
  | .readClock => if r.storeFree then r.stepTdma .readClock else none
  | .update => r.stepTdma .update
  | .callRecalculate => if r.storeFree then r.stepTdma .callRecalculate else none
  | .pass collecting => r.stepPass collecting
  | .lossTick env => if r.storeFree then r.stepLossTick env else none
  | .resetAllStats => some (r.resetAllStats, [.fenced, .statsReset])
  | .resetLossStats => r.stepTdma .resetLossStats
  | .addPair addr written => if r.storeFree then r.stepRoster (.addPair addr written) else none
  | .popPair written => if r.storeFree then r.stepRoster (.popPair written) else none
  | .clear written => if r.storeFree then r.stepClear written else none
  | .restoreStore count addresses =>
    if r.storeFree then r.stepTdma (.restoreStore count addresses) else none
  | .data trackerId seq onOwnPipe isStatus =>
    some (r.receiveData trackerId seq onOwnPipe isStatus)
  | .ackPing env p =>
    some ((r.ackPing env p).1, ((r.ackPing env p).2.map (.ponged p.ackFlag)).toList)
  | .ping p => some (r.receivePingPacket p)
  | .autoLossFence => some (r.esbAutoLossFence, [.fenced])
  | .autoLossInvalidate => some (r.esbAutoLossInvalidate, [.fenced])
  | .rxDiscontinuity => some (r.esbRxDiscontinuity, [.discontinuity])
  | .womRequest target minutes scanStart =>
    if r.storeFree then
      let request := r.womRequest target minutes scanStart
      some (request.1,
        if request.2.1 = 0 then [] else [.womRequested request.2.1 request.2.2 minutes])
    else none
  | .womResult id token =>
    some ((r.womResult id token).1,
      ((r.womResult id token).2.map fun q => .womReported id token q.1 q.2).toList)
  | .womCancel mask token => some (r.womCancel mask token, [.womCancelled mask token])
  | .remoteCommand trackerId flag arg =>
    if trackerId < maxTrackers ∧ reservedFlag flag = false then
      some (r.sendRemoteCommandArg trackerId flag arg, [.commandQueued trackerId flag])
    else some (r, [])
  | .publishFlag trackerId flag =>
    if trackerId < maxTrackers ∧ reservedFlag flag = false then
      some (r.setCommandFlag trackerId flag, [.commandQueued trackerId flag])
    else some (r, [])
  | .sensCommand trackerId auto =>
    if trackerId < maxTrackers then
      some (r.setCommandFlag trackerId (sensFlag auto), [.commandQueued trackerId (sensFlag auto)])
    else some (r, [])
  | .clearOtaAbort trackerId =>
    if trackerId < maxTrackers then some (r.clearRemoteOtaAbort trackerId, []) else some (r, [])
  | .testOn trackerId tps =>
    some (r.sendTestOn trackerId tps,
      if trackerId < maxTrackers then [.testTargeted trackerId pongFlagTestModeOn tps] else [])
  | .testOff trackerId =>
    some (r.sendTestOff trackerId,
      if trackerId < maxTrackers then [.testTargeted trackerId pongFlagTestModeOff 0] else [])
  | .allGuard command =>
    if r.broadcastTask = .idle then
      some ({ r with
        broadcastTask := .guarded command
        testAll := { r.testAll with broadcasting := true } }, [])
    else none
  | .allToken =>
    match r.broadcastTask with
    | .guarded command =>
      some ({ r with
        broadcastTask := .scanning command (r.testAll.generation + 1) r.tdma.uptime
        testAll := { r.testAll with generation := r.testAll.generation + 1 } }, [.tokenDrawn])
    | _ => none
  | .allScan =>
    match r.broadcastTask with
    | .scanning command token scanStart =>
      if r.storeFree then
        some ({ r with broadcastTask := .scanned command token (r.scanActiveMask scanStart) }, [])
      else none
    | _ => none
  | .allPublish =>
    match r.broadcastTask with
    | .scanned command token mask => some (r.stepAllPublish command token mask)
    | _ => none
  | .allRelease =>
    if r.broadcastTask = .aborting then
      some ({ r with
        broadcastTask := .idle
        testAll := { r.testAll with broadcasting := false } }, [])
    else none
  | .noteLayout =>
    match r.policyTask with
    | .noteLayout oldMask newMask activeCount now =>
      some ({ r.testAllNoteLayout oldMask newMask now with
        policyTask := .updateEffective activeCount now }, r.noteLayoutEvents oldMask newMask now)
    | _ => none
  | .updateEffective =>
    match r.policyTask with
    | .updateEffective activeCount now =>
      some ({ r.testAllUpdateEffective activeCount now with policyTask := .idle },
        r.updateEffectiveEvents activeCount now)
    | _ => none
  | .reconcile now =>
    if r.storeFree && decide (now ≤ r.tdma.uptime) then
      if r.testAll.stateValid && !r.testAll.broadcasting then
        some ({ r with policyTask := .reconcile now }, [])
      else some (r, [])
    else none
  | .reconcileRead =>
    match r.policyTask with
    | .reconcile now =>
      some ({ r with policyTask := .reconcileQueued now r.testAll.enabled }, [])
    | _ => none
  | .reconcilePublish =>
    match r.policyTask with
    | .reconcileQueued now enabled =>
      some ({ r.testAllReconcile now enabled with policyTask := .idle },
        r.reconcileEvents now enabled)
    | _ => none

/-- The receiver, from its reset. -/
def receiverSystem : EventSystem Receiver ReceiverOp ReceiverEvent where
  init := .init
  step := receiverStep

end SlimeReceiver
