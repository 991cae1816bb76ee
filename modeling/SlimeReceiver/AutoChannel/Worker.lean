import SlimeReceiver.AutoChannel.LossWindow
import SlimeReceiver.AutoChannel.Sweep

/-! # The channel worker

`auto_step` of `auto_channel.c`, stage by stage. Everything it reads from other contexts is an input of
the call, with a field for each place where it is read: nothing is assumed of what happens in between.

* **`Reading`** — the home channel, the generation and what else decides whether the worker may act.
* **`StepInput`** — what a call reads, in the order of the code.
* **`takeCompletion`**, **`hear`**, **`evidence`**, **`radioStage`** — the stages.
* **`autoStep`**, **`workerSystem`** — a call, and any number of calls. -/

namespace SlimeReceiver.AutoChannel

open Function (update)

/-! ## The state -/

/-- `enum ac_diagnostic`. -/
inductive Diagnostic
  | monitor
  | scanning
  | waitCommit
  | waitRecovery
  | postcheck
  deriving DecidableEq, Repr

/-- `struct migration_result`. -/
structure MigrationResult where
  generation : BitVec 32
  oldHome : ℕ
  newHome : ℕ
  success : Bool
  deriving DecidableEq, Repr

/-- The static variables the worker owns. -/
structure Worker where
  policy : AcPolicy
  survey : Survey
  randomState : BitVec 32
  nextBeacon : ℤ
  nextScan : ℤ
  observedHome : ℕ
  observedGeneration : BitVec 32
  diagnostic : Diagnostic
  nextEvidence : ℤ
  migrationMask : BitVec 32
  recoverySeen : BitVec 32
  requestedHome : ℕ
  requestedTarget : ℕ
  recovery : AutoLossSnapshot
  loss : LossWindow
  scanBaseline : AutoLossSnapshot
  radioFault : Bool

/-! ## What a call reads -/

/-- The home channel, the generation, and the other conditions of `auto_channel_decision_valid` and
pairing, where they are read. -/
structure Reading where
  home : ℕ
  generation : BitVec 32
  enabled : Bool
  interferenceLatched : Bool
  entropyFault : Bool
  pairing : Bool

/-- `auto_channel_decision_valid`. -/
def Reading.decisionValid (token : BitVec 32) (radioFault : Bool) (r : Reading) : Bool :=
  r.enabled && !r.interferenceLatched && !radioFault && !r.entropyFault && r.generation == token

/-- `struct observation`, and whether the worker may use it when it takes it from the queue. -/
structure PeerObservation where
  frame : List (BitVec 8)
  home : ℕ
  generation : BitVec 32
  received : ℤ
  usable : Bool

/-- What `rssi_scan_measure_bounded` returns. -/
inductive Measurement
  | observed (o : ScanObservation)
  /-- `-EAGAIN`: the visit is censored. -/
  | censored
  | failed

/-- What a call of `auto_step` reads from other contexts. -/
structure StepInput where
  now : ℤ
  home : ℕ
  /-- `esb_rf_channel_decode` yields no other channel. -/
  home_le : home ≤ 100
  token : BitVec 32
  /-- The content of the mailbox, if a completion is pending. -/
  completion : Option MigrationResult
  /-- The snapshot taken when a migration was committed. -/
  committed : AutoLossSnapshot
  observations : List PeerObservation
  available : Reading
  snapshot : AutoLossSnapshot
  /-- What `esb_auto_loss_rebase` returns. -/
  rebased : AutoLossSnapshot
  latching : Reading
  /-- `esb_radio_operation_begin` fails. -/
  radioBusy : Bool
  admitted : Reading
  dithered : Reading
  stopFails : Bool
  beaconFails : Bool
  measuring : Reading
  measurement : Measurement
  /-- The radio is disabled after the measurement. -/
  radioDisabled : Bool
  restoreFails : Bool
  final : Reading
  measuredAt : ℤ
  expiryAt : ℤ
  confirmAt : ℤ
  chosenAt : ℤ
  /-- Home and generation when `esb_auto_channel_request` is called; the worker does not read them. -/
  calling : Reading
  /-- `esb_auto_channel_request` fails. -/
  rejected : Bool
  scheduledAt : ℤ

/-- A call of `esb_auto_channel_request`, with the table of peers and the time it was decided by. -/
structure Request where
  target : ℕ
  home : ℕ
  token : BitVec 32
  policy : AcPolicy
  chosenAt : ℤ
  calling : Reading
  rejected : Bool

/-- What a history records of the worker. -/
inductive WorkerEvent
  /-- A call starts, with the home channel and the generation it has read. -/
  | sampled (home : ℕ) (token : BitVec 32)
  /-- A committed migration is followed up. -/
  | committed (snapshot : AutoLossSnapshot) (now : ℤ)
  /-- The check after a migration has a verdict; loss is latched if the worker may still act. -/
  | judged (lost latched : Bool)
  | sweepStarted (home : ℕ) (token : BitVec 32)
  /-- The second part of a sweep starts. -/
  | confirming (finalists : List ℕ)
  /-- `sweep.order[sweep.candidate]` is read. -/
  | ordered (candidate count : ℕ)
  /-- A visit that was not censored. -/
  | visited (channel : ℕ) (o : ScanObservation)
  /-- The last check of a call passed. -/
  | rechecked (home : ℕ) (token : BitVec 32)
  | requested (request : Request)

namespace Worker

/-! ## The stages -/

/-- The worker gives up what it was measuring. -/
def abandon (w : Worker) : Worker :=
  { w with
    survey := .reset
    diagnostic := if w.diagnostic = .scanning then .monitor else w.diagnostic
    loss := { w.loss with valid := false } }

/-- `random_next`. -/
def nextRandom (w : Worker) : Worker := { w with randomState := randomNext w.randomState }

/-- A time between 2000 and 4000 ms ahead. -/
def beaconAfter (now : ℤ) (w : Worker) : Worker :=
  { w.nextRandom with nextBeacon := now + 2000 + (w.nextRandom.randomState.toNat % 2001 : ℕ) }

/-- The result is that of a migration that was committed. -/
def commits (home : ℕ) (token : BitVec 32) (w : Worker) (result : MigrationResult) : Bool :=
  w.diagnostic == .waitCommit && result.generation == token && token == w.observedGeneration &&
    result.oldHome == w.requestedHome && result.newHome == w.requestedTarget && result.success &&
    home == result.newHome

/-- Home or generation have changed. -/
def noteHome (now : ℤ) (home : ℕ) (token : BitVec 32) (committed : Bool) (w : Worker) : Worker :=
  if home ≠ w.observedHome ∨ token ≠ w.observedGeneration then
    { w with
      policy := { w.policy with
        peers := fun _ => .zero
        cooldown := 0 }
      survey := .reset
      loss := { w.loss with valid := false }
      diagnostic := if committed then w.diagnostic else .monitor
      observedHome := home
      observedGeneration := token
      nextEvidence := now }
  else w

/-- The result answers the request the worker waits for. -/
def answers (token : BitVec 32) (w : Worker) (result : MigrationResult) : Bool :=
  w.diagnostic == .waitCommit && result.generation == token && result.oldHome == w.requestedHome &&
    (!result.success || result.newHome == w.requestedTarget)

/-- The start of `auto_step`, up to the queue of observations. -/
def takeCompletion (i : StepInput) (w : Worker) : Worker × List WorkerEvent :=
  let committed := i.completion.any (w.commits i.home i.token)
  let noted := w.noteHome i.now i.home i.token committed
  if i.completion.any (noted.answers i.token) then
    if committed then
      ({ noted with
        diagnostic := .waitRecovery
        recovery := i.committed
        recoverySeen := 0
        loss := noted.loss.baseline i.committed i.now false
        policy := { noted.policy with cooldown := i.now + acCooldownMs }
        nextEvidence := i.now + acEvidenceMs }, [.committed i.committed i.now])
    else
      ({ noted with
        diagnostic := .monitor
        loss := { noted.loss with valid := false }
        nextEvidence := i.now }, [])
  else (noted, [])

/-- The loop over the queue of observations. -/
def hear (i : StepInput) (w : Worker) : Worker :=
  { w with
    policy := i.observations.foldl (fun policy o =>
      if o.usable && o.home == i.home && o.generation == i.token && decide (o.received ≤ i.now) &&
          decide (i.now - o.received < acExpiryMs) then (policy.acObserve o.frame o.received).1
      else policy) w.policy }

/-- All trackers of the migration are active and ready. -/
def participate (s : AutoLossSnapshot) (w : Worker) : Bool :=
  s.activeMask &&& w.migrationMask == w.migrationMask &&
    s.readyMask &&& w.migrationMask == w.migrationMask

/-- `recovery_sample`. -/
def recoverySample (s : AutoLossSnapshot) (i : StepInput) (w : Worker) : Worker :=
  if !s.eligible || w.migrationMask == 0 || s.capPending || !w.participate s ||
      discontinuity w.recovery s || decide (acEvidenceMs + 500 < i.now - w.loss.sampled) then
    { w with
      recovery := s
      recoverySeen := 0
      loss := w.loss.baseline s i.now false }
  else
    let rebased : Worker := { w with
      recoverySeen := s.readyMask &&& w.migrationMask
      recovery := i.rebased
      loss := w.loss.baseline i.rebased i.now false }
    if i.rebased.eligible && !i.rebased.capPending && w.participate i.rebased then
      { rebased with diagnostic := .postcheck }
    else rebased

/-- The worker after a sample of the loss window. -/
def sampled (s : AutoLossSnapshot) (i : StepInput) (w : Worker) : Worker :=
  let loss := (w.loss.lossSample s i.now).1
  { w with loss := if loss.count = 0 then { loss with previous := i.rebased } else loss }

/-- What the worker makes of a verdict, and whether it may go on and start a sweep. -/
def judge (evidence : Option Bool) (i : StepInput) (w : Worker) :
    Worker × Bool × Bool × List WorkerEvent :=
  match w.diagnostic, evidence with
  | .postcheck, some true =>
    (w, false, false, [.judged true (i.latching.decisionValid i.token w.radioFault)])
  | .postcheck, some false =>
    ({ w with diagnostic := .monitor }, true, false, [.judged false false])
  | .monitor, evidence => (w, true, evidence == some true && decide (w.policy.cooldown ≤ i.now), [])
  | _, _ => (w, true, false, [])

/-- The evidence of a second, with the result of `judge`. -/
def weigh (s : AutoLossSnapshot) (i : StepInput) (w : Worker) :
    Worker × Bool × Bool × List WorkerEvent :=
  if w.diagnostic = .waitRecovery then (w.recoverySample s i, true, false, [])
  else if w.diagnostic = .scanning then
    if !s.eligible || s.capPending || discontinuity w.scanBaseline s then
      ({ w with
        survey := .reset
        diagnostic := .monitor
        loss := { w.loss with valid := false } }, true, false, [])
    else (w, true, false, [])
  else if w.diagnostic = .postcheck ∧
      (!s.eligible || s.capPending || !w.participate s || discontinuity w.loss.previous s) = true then
    ({ w with
      diagnostic := .waitRecovery
      recovery := s
      recoverySeen := 0
      loss := w.loss.baseline s i.now false }, true, false, [])
  else if w.diagnostic = .waitCommit then (w, true, false, [])
  else (w.sampled s i).judge (w.loss.lossSample s i.now).2 i

/-- The grid of the evidence moves on; a missed point invalidates what was measured. -/
def advanceGrid (s : AutoLossSnapshot) (i : StepInput) (w : Worker) : Worker :=
  let missed := decide (acEvidenceMs ≤ i.now - w.nextEvidence)
  let advanced : Worker := { w with
    nextEvidence :=
      w.nextEvidence + ((i.now - w.nextEvidence) / acEvidenceMs + 1) * acEvidenceMs }
  if missed then
    if w.diagnostic = .waitRecovery then
      { advanced with
        loss := { w.loss with valid := false }
        recovery := s
        recoverySeen := 0 }
    else { advanced with loss := { w.loss with valid := false } }
  else advanced

/-- The evidence part of `auto_step`: whether the worker is still available, and whether it is
qualified for a sweep. -/
def evidence (available : Bool) (i : StepInput) (w : Worker) :
    Worker × Bool × Bool × List WorkerEvent :=
  if w.nextEvidence ≤ i.now then
    let s := { i.snapshot with eligible := i.snapshot.eligible && available }
    let weighed := (w.advanceGrid s i).weigh s i
    (weighed.1, available && weighed.2.1, weighed.2.2.1, weighed.2.2.2)
  else (w, available, false, [])

/-- A check while the radio is held. -/
def admits (i : StepInput) (w : Worker) (r : Reading) : Bool :=
  r.decisionValid i.token w.radioFault && !r.pairing && r.home == i.home

/-- A sweep starts. -/
def startSweep (i : StepInput) (w : Worker) : Worker :=
  let active : Survey := { w.survey with
    sweep := { w.survey.sweep with
      active := true
      deadline := i.now + 60000 } }
  let shuffled := active.shuffleSweep i.home w.randomState
  let jitter := randomNext shuffled.1 ^^^ (w.policy.identity.getD 0 0).setWidth 32
  { w with
    survey := shuffled.2
    diagnostic := .scanning
    scanBaseline := w.loss.previous
    migrationMask := w.loss.previous.activeMask
    randomState := randomNext shuffled.1
    nextScan := i.now + 40 + (jitter.toNat % 21 : ℕ) }

/-! ### The end of a round -/

/-- Every channel of the survey has its visits. -/
def complete (home : ℕ) (v : Survey) : Bool :=
  (evenChannels.all fun ch => !v.sweep.surveyChannel ch home ||
    (v.energy ch).visits == v.sweep.requiredVisits) &&
    (v.energy home).visits == v.sweep.requiredVisits

/-- A channel has used its attempts up. -/
def exhausted (channel : ℕ) (v : Survey) : Bool :=
  decide (384 ≤ (v.energy channel).attempts) && v.lacks channel

/-- Some channel of the survey has used its attempts up. -/
def attemptsExhausted (home : ℕ) (v : Survey) : Bool :=
  (evenChannels.any fun ch => v.sweep.surveyChannel ch home && exhausted ch v) || exhausted home v

/-- The sweep is over. -/
def finishSweep (target : Option ℕ) (i : StepInput) (w : Worker) : Worker × List WorkerEvent :=
  let ended : Worker := { w with
    survey := .reset
    loss := { w.loss with valid := false }
    diagnostic := .monitor }
  match target with
  | none => (ended, [])
  | some target =>
    ({ ended with
      requestedHome := i.home
      requestedTarget := target
      diagnostic := if i.rejected then .monitor else .waitCommit },
      [.requested ⟨target, i.home, i.token, w.policy, i.chosenAt, i.calling, i.rejected⟩])

/-- The end of a round. -/
def finishRound (expired : Bool) (i : StepInput) (w : Worker) : Worker × List WorkerEvent :=
  let done := complete i.home w.survey
  let confirmed := if done && !expired && !w.survey.sweep.confirming then
    w.survey.beginConfirmation i.home i.confirmAt w.policy w.randomState else none
  match confirmed with
  | some (random, survey) =>
    ({ w with
      survey := survey
      randomState := random },
      [.confirming ((Survey.pickFinalists i.home i.confirmAt w.policy 3 w.survey.scores).map Prod.fst)])
  | none =>
    if done || attemptsExhausted i.home w.survey || expired then
      w.finishSweep (if done && !expired && w.survey.sweep.confirming then
        w.policy.acChoose i.home w.survey.scores i.chosenAt else none) i
    else
      let shuffled := w.survey.shuffleSweep i.home w.randomState
      ({ w with
        survey := shuffled.2
        randomState := shuffled.1 }, [])

/-- The next candidate, or the end of a round. -/
def finishVisit (i : StepInput) (w : Worker) : Worker × List WorkerEvent :=
  let paced : Worker := { w.nextRandom with
    nextScan := i.measuredAt + 40 + (w.nextRandom.randomState.toNat % 21 : ℕ) }
  let sweep := w.survey.sweep
  let expired := decide (sweep.deadline ≤ i.expiryAt)
  if sweep.candidate + 1 = sweep.order.length ∨ expired = true then
    { paced with
      survey := { w.survey with
        sweep := { sweep with
          candidate := 0
          rounds := sweep.rounds + 1 } } : Worker }.finishRound expired i
  else
    ({ paced with
      survey := { w.survey with
        sweep := { sweep with candidate := sweep.candidate + 1 } } }, [])

/-! ### The radio -/

/-- The measurement of the next channel, and whether it failed. -/
def measure (i : StepInput) (w : Worker) : Worker × Bool × List WorkerEvent :=
  let sweep := w.survey.sweep
  let channel := sweep.order.getD sweep.candidate 0
  let attempted : Worker := { w with survey := w.survey.attempt channel }
  match i.measurement with
  | .observed o =>
    if i.radioDisabled then
      ({ attempted with survey := attempted.survey.recordVisit channel o }, false,
        [.ordered sweep.candidate sweep.order.length, .visited channel o])
    else (attempted, true, [.ordered sweep.candidate sweep.order.length])
  | .censored => (attempted, false, [.ordered sweep.candidate sweep.order.length])
  | .failed => (attempted, true, [.ordered sweep.candidate sweep.order.length])

/-- From the stop of the radio to the end of the visit. -/
def radioVisit (beaconDue scanDue : Bool) (i : StepInput) (w : Worker) :
    Worker × List WorkerEvent :=
  let failed := i.stopFails || beaconDue && i.beaconFails
  let measured := if !failed && scanDue && i.measuring.decisionValid i.token w.radioFault &&
      i.measuring.home == i.home then w.measure i else (w, failed, [])
  let restored : Worker := { measured.1 with radioFault := w.radioFault || i.restoreFails }
  if measured.2.1 || i.restoreFails || !i.final.decisionValid i.token restored.radioFault ||
      i.final.home != i.home then (restored.abandon, measured.2.2)
  else
    let checked := measured.2.2 ++ [WorkerEvent.rechecked i.final.home i.final.generation]
    if scanDue then
      let finished := restored.finishVisit i
      (finished.1, checked ++ finished.2)
    else (restored, checked)

/-- What `auto_step` does with the radio. -/
def radioStage (beaconDue scanDue qualified : Bool) (i : StepInput) (w : Worker) :
    Worker × List WorkerEvent :=
  if i.radioBusy then (w.abandon, [])
  else if !w.admits i i.admitted then (w.abandon, [])
  else
    let starts := qualified && !w.survey.sweep.active
    let started := if starts then w.startSweep i else w
    let events : List WorkerEvent := if starts then [.sweepStarted i.home i.token] else []
    if !beaconDue && !scanDue then (started, events)
    else
      -- the dither within a millisecond uses a random number
      let dithered := if scanDue then started.nextRandom else started
      if !dithered.admits i i.dithered then (dithered.abandon, events)
      else
        let visited := dithered.radioVisit beaconDue scanDue i
        (visited.1, events ++ visited.2)

/-! ## A call -/

/-- The worker may act. -/
def isAvailable (i : StepInput) (w : Worker) : Bool :=
  i.available.decisionValid i.token w.radioFault && !i.available.pairing

/-- From the evidence to the label `schedule`, with whether a beacon was due. -/
def act (i : StepInput) (w : Worker) : Worker × Bool × List WorkerEvent :=
  let weighed := w.evidence (w.isAvailable i) i
  let available := weighed.2.1
  let qualified := weighed.2.2.1
  let kept := if available then weighed.1 else weighed.1.abandon
  let beaconDue := decide (kept.nextBeacon ≤ i.now)
  let scanDue := kept.survey.sweep.active && decide (kept.nextScan ≤ i.now)
  let starts := qualified && !kept.survey.sweep.active
  if !available || (!beaconDue && !scanDue && !starts) then (kept, beaconDue, weighed.2.2.2)
  else
    let acted := kept.radioStage beaconDue scanDue qualified i
    (acted.1, beaconDue, weighed.2.2.2 ++ acted.2)

/-- `auto_step`. -/
def autoStep (i : StepInput) (w : Worker) : Worker × List WorkerEvent :=
  let seeded := if w.nextBeacon = 0 then w.beaconAfter i.now else w
  let taken := seeded.takeCompletion i
  let acted := (taken.1.hear i).act i
  (if acted.2.1 then acted.1.beaconAfter i.scheduledAt else acted.1,
    .sampled i.home i.token :: (taken.2 ++ acted.2.2))

/-- The static initial values, for a receiver and a random seed. -/
def init (identity : List (BitVec 8)) (seed : BitVec 32) : Worker where
  policy := ⟨identity, fun _ => .zero, 0⟩
  survey := ⟨fun _ => 0, fun _ => ⟨0, 0, 0, 0, 0, 0⟩, ⟨0, 0, 0, [], 0, false, false⟩⟩
  randomState := seed
  nextBeacon := 0
  nextScan := 0
  observedHome := 255
  observedGeneration := 0
  diagnostic := .monitor
  nextEvidence := 0
  migrationMask := 0
  recoverySeen := 0
  requestedHome := 0
  requestedTarget := 0
  recovery := LossWindow.zero.previous
  loss := .zero
  scanBaseline := LossWindow.zero.previous
  radioFault := false

end Worker

/-- The worker, with any inputs of its calls. -/
def workerSystem (identity : List (BitVec 8)) (seed : BitVec 32) :
    EventSystem Worker StepInput WorkerEvent where
  init := .init identity seed
  step w i := some (w.autoStep i)

end SlimeReceiver.AutoChannel
