import SlimeReceiver.Ota.HostUpdate
import SlimeReceiver.Library.EventSystem

/-! # The update procedure turn by turn

`do_update` of `esb_ota.py` from its call to its result or its exception. A turn is a pass of one of its
loops, or what lies between two of them; the clock and the reports come from outside.

* **`Turn`** — what a turn meets with.
* **`StatusWait`** — `wait_for_multi_status`.
* **`Procedure`** — the variables of `do_update`; **`Procedure.turn`** — one turn.
* **`doUpdate`** — the system.
* **`Procedure.turnsLeft`** — an upper bound for the turns to come. -/

namespace SlimeReceiver.Ota

open Function (update)

/-! ## Turns -/

/-- A quarter of a HID report. -/
abbrev OtaReport := { report : List (BitVec 8) // report.length = 16 }

/-- What a turn meets with; times in milliseconds. -/
structure Turn where
  /-- What has passed when the reports are waited for. -/
  early : ℕ
  /-- What passes beyond the timeout. -/
  late : ℕ
  /-- The result of `_read_ota_reports`. -/
  reports : List OtaReport

/-- The STATUS reports. -/
def Turn.statuses (t : Turn) : List StatusReport := t.reports.filterMap fun report => parseStatus report.1

/-- What `do_update` sends or reads. -/
inductive HostEvent
  | sentBegin (trackerId : ℕ)
  | sentData (trackerId seq : ℕ)
  | sentVerify (trackerId : ℕ)
  | sentActivate (trackerId : ℕ)
  | sentAbort
  /-- The streaming phase begins with these trackers. -/
  | ready (activeIds : List ℕ)
  /-- A STATUS is read in the streaming phase, during gap-fill or while VERIFY_OK is waited for. -/
  | status (verifying : Bool) (status : StatusReport)
  deriving DecidableEq

/-! ## Waiting for a status -/

/-- The three uses of `wait_for_multi_status`. -/
inductive Awaited
  | ready
  | verified
  | activated
  deriving DecidableEq

namespace Awaited

/-- `expected_statuses`. -/
def expectedStatuses : Awaited → List (BitVec 8)
  | ready => Host.expectedStatuses
  | verified => [0x03, 0x04, 0x10]
  | activated => [0x06, 0x10, 0x12]

/-- `timeout_s`. -/
def timeout : Awaited → ℕ
  | ready => 15000
  | verified => 30000
  | activated => 15000

/-- What `resend_cb` sends. -/
def command (trackerId : ℕ) : Awaited → HostEvent
  | ready => .sentBegin trackerId
  | verified => .sentVerify trackerId
  | activated => .sentActivate trackerId

end Awaited

/-- `resend_interval_s`. -/
def resendInterval : ℕ := 3000

/-- The variables of `wait_for_multi_status`. -/
structure StatusWait where
  pending : List ℕ
  results : ℕ → Option StatusReport
  deadline : ℕ
  nextResend : ℕ

namespace StatusWait

/-- `wait_for_multi_status` when it is called. -/
def start (trackerIds : List ℕ) (now timeout : ℕ) : StatusWait where
  pending := trackerIds.dedup.insertionSort (· ≤ ·)
  results := fun _ => none
  deadline := now + timeout
  nextResend := now + resendInterval

/-- A STATUS is read. -/
def note (expected : List (BitVec 8)) (w : StatusWait) (status : StatusReport) : StatusWait :=
  if status.trackerId ∈ w.pending ∧ status.status ∈ expected then
    { w with
      pending := w.pending.erase status.trackerId
      results := update w.results status.trackerId (some status) }
  else w

end StatusWait

/-! ## The variables -/

/-- What can be raised. -/
inductive UpdateError
  /-- A value does not fit its field. -/
  | encoding
  /-- `min` of nothing. -/
  | emptyMin
  | zeroDivision
  deriving DecidableEq

/-- Where `do_update` is. -/
inductive Point
  | called
  | waiting (awaited : Awaited) (wait : StatusWait)
  | streaming
  | gapFill (stallCount : ℕ) (prevMinSeq : ℤ) (gapTimeout : ℕ)
  | returned (success : Bool)
  | raised (error : UpdateError)

/-- The variables of `do_update`. -/
structure Procedure where
  point : Point
  /-- `time.monotonic()`. -/
  now : ℕ
  activeIds : List ℕ
  trackerNextSeq : ℕ → ℕ
  nextSeqToSend : ℕ
  warmup : Bool
  attempt : ℕ
  startTime : ℕ
  overallTimeout : ℕ
  verifiedIds : List ℕ

namespace Procedure

/-- `do_update` when it is called. -/
def init : Procedure where
  point := .called
  now := 0
  activeIds := []
  trackerNextSeq := fun _ => 0
  nextSeqToSend := 0
  warmup := true
  attempt := 0
  startTime := 0
  overallTimeout := 0
  verifiedIds := []

/-- Time passes. -/
def pass (time : ℕ) (p : Procedure) : Procedure := { p with now := p.now + time }

/-- An exception. -/
def raise (error : UpdateError) (p : Procedure) : Procedure := { p with point := .raised error }

/-- `min_consumed`, unless `min` raises. -/
def minConsumed (p : Procedure) : Option ℕ := (p.activeIds.map p.trackerNextSeq).min?

/-! ## The end of a phase -/

/-- Step 1: BEGIN for every tracker. -/
def sendBegins (u : UpdateArgs) (t : Turn) (p : Procedure) : Procedure × List HostEvent :=
  let sent := u.trackerIds.takeWhile fun id => (sendBegin u id).isSome
  let p := p.pass (50 * sent.length + t.early + t.late)
  if sent = u.trackerIds then
    ({ p with point := .waiting .ready (.start u.trackerIds p.now Awaited.ready.timeout) }, sent.map .sentBegin)
  else (p.raise .encoding, sent.map .sentBegin)

/-- The end of step 2 and the commands of step 3. -/
def finishTransfer (t : Turn) (p : Procedure) : Procedure × List HostEvent :=
  -- `image_size / elapsed`
  if p.now = p.startTime then (p.raise .zeroDivision, [])
  else
    let p := p.pass (500 + 50 * p.activeIds.length + t.late)
    ({ p with point := .waiting .verified (.start p.activeIds p.now Awaited.verified.timeout) },
      p.activeIds.map .sentVerify)

/-- The head of the outer loop of step 2. -/
def nextAttempt (t : Turn) (p : Procedure) : Procedure × List HostEvent :=
  if p.attempt < maxAttempts ∧ p.now < p.overallTimeout then ({ p with point := .streaming }, [])
  else p.finishTransfer t

/-- `active_ids` after step 1. -/
def readyIds (u : UpdateArgs) (w : StatusWait) : List ℕ :=
  u.trackerIds.filter fun id => (w.results id).any fun status => status.status = 0x01 ∨ status.status = 0x02

/-- `verified_ids`. -/
def verifiedOf (w : StatusWait) (activeIds : List ℕ) : List ℕ :=
  activeIds.filter fun id => (w.results id).any fun status => status.status = 0x03

/-- The tracker counts as updated: it may have rebooted without an answer. -/
def activated (w : StatusWait) (id : ℕ) : Bool := (w.results id).all fun status => status.status = 0x06

/-- What follows the wait. -/
def afterWait (u : UpdateArgs) (w : StatusWait) (t : Turn) (p : Procedure) : Awaited → Procedure × List HostEvent
  | .ready =>
    if readyIds u w = [] then ({ p with point := .returned false }, [.sentAbort])
    else
      let started := { p.pass (t.early + t.late) with
        activeIds := readyIds u w
        trackerNextSeq := fun _ => 0
        nextSeqToSend := 0
        warmup := true
        attempt := 0
        startTime := p.now
        overallTimeout := p.now + t.early + 120000 }
      let next := started.nextAttempt t
      (next.1, HostEvent.ready (readyIds u w) :: next.2)
  | .verified =>
    let verifiedIds := verifiedOf w p.activeIds
    if verifiedIds = [] then ({ p with point := .returned false }, [.sentAbort])
    else
      let p := p.pass (50 * verifiedIds.length + t.early + t.late)
      ({ p with
        point := .waiting .activated (.start verifiedIds p.now Awaited.activated.timeout)
        verifiedIds }, verifiedIds.map .sentActivate)
  | .activated => ({ p with point := .returned (p.verifiedIds.any (activated w)) }, [.sentAbort])

/-! ## The loops -/

/-- A pass of the loop of `wait_for_multi_status`; what is sent again has been sent before. -/
def waitTurn (u : UpdateArgs) (awaited : Awaited) (w : StatusWait) (t : Turn) (p : Procedure) :
    Procedure × List HostEvent :=
  if w.pending ≠ [] ∧ p.now < w.deadline then
    let resends := if w.nextResend ≤ p.now then w.pending.map (awaited.command ·) else []
    let w := if w.nextResend ≤ p.now then { w with nextResend := p.now + t.early + resendInterval } else w
    ({ p.pass (t.early + 200 + t.late) with
      point := .waiting awaited (t.statuses.foldl (StatusWait.note awaited.expectedStatuses) w) },
      resends ++ if awaited = .verified then t.statuses.map (HostEvent.status true) else [])
  else p.afterWait u w t awaited

/-- `burst` before what is left of the image is looked at. -/
def burstCount (inFlight : ℤ) (p : Procedure) : ℕ :=
  (min (if p.warmup then (warmupBurstSize : ℤ) else burstSize) (maxInFlight - inFlight)).toNat

/-- A burst. -/
def sendBurst (u : UpdateArgs) : ℕ → Procedure → Procedure × List HostEvent
  | 0, p => (p, [])
  | left + 1, p =>
    if u.totalPackets ≤ p.nextSeqToSend ∨ u.chunk p.nextSeqToSend = [] then (p, [])
    else if (sendData (p.activeIds.headD 0) p.nextSeqToSend (u.chunk p.nextSeqToSend)).isSome then
      let rest := sendBurst u left { p with nextSeqToSend := p.nextSeqToSend + 1 }
      (rest.1, HostEvent.sentData (p.activeIds.headD 0) p.nextSeqToSend :: rest.2)
    else (p.raise .encoding, [])

/-- The reports read in the streaming phase: with its last tracker `do_update` is over. -/
def noteStreaming : List StatusReport → Procedure → Procedure
  | [], p => p
  | status :: rest, p =>
    if status.trackerId ∈ p.activeIds then
      if isTerminal status.status then
        if p.activeIds.erase status.trackerId = [] then { p with activeIds := [], point := .returned false }
        else noteStreaming rest { p with activeIds := p.activeIds.erase status.trackerId }
      else noteStreaming rest { p with
        trackerNextSeq := update p.trackerNextSeq status.trackerId status.nextSeq
        warmup := false }
    else noteStreaming rest p

/-- A pass of the streaming loop. -/
def streamTurn (u : UpdateArgs) (t : Turn) (p : Procedure) : Procedure × List HostEvent :=
  if p.nextSeqToSend < u.totalPackets ∧ p.now < p.overallTimeout then
    match p.minConsumed with
    | none => (p.raise .emptyMin, [])
    | some minConsumed =>
      if (maxInFlight : ℤ) ≤ p.nextSeqToSend - minConsumed then
        (noteStreaming t.statuses (p.pass (t.early + 50 + t.late)), t.statuses.map (HostEvent.status false))
      else
        let burst := sendBurst u (p.burstCount (p.nextSeqToSend - minConsumed)) p
        match burst.1.point with
        | .raised _ => burst
        | _ =>
          (noteStreaming t.statuses (burst.1.pass (t.early + (if p.warmup then 50 else 5) + t.late)),
            burst.2 ++ t.statuses.map (HostEvent.status false))
  else ({ p.pass (t.early + t.late) with point := .gapFill 0 (-1) (p.now + 15000) }, [])

/-- A report read during gap-fill. -/
def noteGapFill (p : Procedure) (status : StatusReport) : Procedure :=
  if status.trackerId ∈ p.activeIds then
    if isTerminal status.status then { p with activeIds := p.activeIds.erase status.trackerId }
    else { p with trackerNextSeq := update p.trackerNextSeq status.trackerId status.nextSeq }
  else p

/-- What follows the reports of a pass of gap-fill. -/
def checkStall (u : UpdateArgs) (stallCount : ℕ) (prevMinSeq : ℤ) (gapTimeout : ℕ) (t : Turn) (p : Procedure) :
    Procedure × List HostEvent :=
  match p.minConsumed with
  | none => (p.raise .emptyMin, [])
  | some minConsumed =>
    if u.totalPackets ≤ minConsumed then p.finishTransfer t
    else if minConsumed = prevMinSeq then
      if 5 ≤ stallCount + 1 ∧ (p.nextSeqToSend : ℤ) - minConsumed = 0 then
        nextAttempt t { p with
          nextSeqToSend := minConsumed
          warmup := false
          attempt := p.attempt + 1 }
      else ({ p with point := .gapFill (stallCount + 1) minConsumed gapTimeout }, [])
    else ({ p with point := .gapFill 0 minConsumed gapTimeout }, [])

/-- A pass of the gap-fill loop. -/
def gapTurn (u : UpdateArgs) (stallCount : ℕ) (prevMinSeq : ℤ) (gapTimeout : ℕ) (t : Turn) (p : Procedure) :
    Procedure × List HostEvent :=
  if p.now < gapTimeout then
    match p.minConsumed with
    | none => (p.raise .emptyMin, [])
    | some minConsumed =>
      if u.totalPackets ≤ minConsumed then (p.pass t.early).finishTransfer t
      else
        let noted := t.statuses.foldl noteGapFill (p.pass (t.early + 200 + t.late))
        let next := noted.checkStall u stallCount prevMinSeq gapTimeout t
        (next.1, t.statuses.map (HostEvent.status false) ++ next.2)
  else (p.pass t.early).finishTransfer t

/-- One turn. -/
def turn (u : UpdateArgs) (p : Procedure) (t : Turn) : Option (Procedure × List HostEvent) :=
  match p.point with
  | .called => some (p.sendBegins u t)
  | .waiting awaited w => some (p.waitTurn u awaited w t)
  | .streaming => some (p.streamTurn u t)
  | .gapFill stallCount prevMinSeq gapTimeout => some (p.gapTurn u stallCount prevMinSeq gapTimeout t)
  | .returned _ | .raised _ => none

end Procedure

/-- The runs of `do_update`. -/
def doUpdate (u : UpdateArgs) : EventSystem Procedure Turn HostEvent where
  init := .init
  step := Procedure.turn u

end SlimeReceiver.Ota
