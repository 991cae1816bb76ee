import SlimeReceiver.Link.Sequence
import SlimeReceiver.Tdma.Layout

/-! # The sticky test-all policy

`test_all_*` and the test commands. An all-target command runs outside the locks for a second, so
it is cut at its critical sections: the guard, the token, the scan and the publication.

* **`testAllInvalidate`**, **`testAllInvalidateTracker`** — a targeted command or a restart.
* **`testAllNoteLayout`**, **`testAllUpdateEffective`** — what a publication does to the policy.
* **`reconcileTracker`** — one iteration of `test_all_reconcile`.
* **`sendTestOn`**, **`sendTestOff`** — targeted commands.
* **`publishAll`** — the final critical section of an all-target command. -/

namespace SlimeReceiver

open Function (update)

/-- The flag an all-target command publishes. -/
def AllCommand.flag : AllCommand → BitVec 8
  | .on _ => pongFlagTestModeOn
  | .off => pongFlagTestModeOff

/-- A pending test flag is parked. -/
def CommandSlot.parkTest (slot : CommandSlot) : CommandSlot :=
  if slot.trackerRemoteCommand = pongFlagTestModeOn ∨
      slot.trackerRemoteCommand = pongFlagTestModeOff then
    { slot with trackerRemoteCommand := pongFlagNormal }
  else slot

namespace Receiver

/-- The command slot of a tracker replaced. -/
def withCommand (trackerId : ℕ) (slot : CommandSlot) (r : Receiver) : Receiver :=
  { r with command := update r.command trackerId slot }

/-! ## Rates -/

/-- `test_all_capacity_tps`: what the actual layout can carry. -/
def testAllCapacityTps (activeCount : ℕ) (r : Receiver) : BitVec 16 :=
  if activeCount = 0 then 1000
  else
    let sticks := if r.tdma.layout.dynamicSlotTicks > 0 then r.tdma.layout.dynamicSlotTicks
      else tdmaBaseSlotTicks
    let capacity := 32768 / (sticks * activeCount)
    let clamped := capacity / testAllRateQuantumTps * testAllRateQuantumTps
    if clamped > 0 then BitVec.ofNat 16 clamped else 1

/-- `test_all_requested_value`. -/
def testAllRequestedValue (r : Receiver) : BitVec 16 :=
  if r.testAll.requestedTps = 0 then 100 else r.testAll.requestedTps

/-- `test_all_wire_tps`: zero stays the protocol spelling of the default rate. -/
def testAllWireTps (r : Receiver) : BitVec 16 :=
  if r.testAll.requestedTps = 0 then 0 else r.testAll.effectiveTps

/-- `MIN(test_all_requested_value(), test_all_capacity_tps(active_count))`. -/
def testAllEffective (activeCount : ℕ) (r : Receiver) : BitVec 16 :=
  if r.testAllRequestedValue < r.testAllCapacityTps activeCount then r.testAllRequestedValue
  else r.testAllCapacityTps activeCount

/-! ## Superseding the policy -/

/-- `test_all_invalidate`. -/
def testAllInvalidate (r : Receiver) : Receiver :=
  { r with testAll := { r.testAll with
      stateValid := false
      confirmedMask := 0
      broadcasting := false } }

/-- The deadline of a grace armed at `now`. -/
def graceDeadline (now : ℕ) : BitVec 32 := stamp now + BitVec.ofNat 32 testAllJoinConfigGraceMs

/-- Drop the confirmation of a tracker and arm its join grace: what every recovery path does. -/
def armGrace (trackerId now : ℕ) (r : Receiver) : Receiver :=
  { r with testAll := { r.testAll with
      confirmedMask := clearBit r.testAll.confirmedMask trackerId
      readyAfterMs := update r.testAll.readyAfterMs trackerId (graceDeadline now) } }

/-- `test_all_invalidate_tracker`. -/
def testAllInvalidateTracker (trackerId nowMs : ℕ) (r : Receiver) : Receiver :=
  armGrace trackerId nowMs (r.withCommand trackerId (r.command trackerId).parkTest)

/-! ## Following the layout -/

/-- `test_all_note_layout`: trackers that joined the layout get the current rate and a grace. -/
def testAllNoteLayout (oldMask newMask : TrackerMask) (now : ℕ) (r : Receiver) : Receiver :=
  if !r.testAll.stateValid then r
  else
    let joinedMask := newMask &&& ~~~oldMask
    { r with
      testAll := { r.testAll with
        confirmedMask := r.testAll.confirmedMask &&& ~~~joinedMask
        readyAfterMs := eachBelow maxTrackers
          (fun i ready => if hasBit joinedMask i then graceDeadline now else ready)
          r.testAll.readyAfterMs }
      command := eachBelow maxTrackers
        (fun i slot => if hasBit joinedMask i && r.testAll.enabled then
          { slot with trackerTestOnTps := r.testAllWireTps } else slot) r.command }

/-- `test_all_update_effective(active_count, now, true)`: a changed rate is announced again to the
trackers of the layout, after a new grace. -/
def testAllUpdateEffective (activeCount now : ℕ) (r : Receiver) : Receiver :=
  if !r.testAll.stateValid || !r.testAll.enabled then r
  else if r.testAllEffective activeCount = r.testAll.effectiveTps then r
  else
    let activeMask := r.tdma.layout.activeMask
    let reclamped := { r with testAll := { r.testAll with
      effectiveTps := r.testAllEffective activeCount
      confirmedMask := r.testAll.confirmedMask &&& ~~~activeMask } }
    { reclamped with
      testAll := { reclamped.testAll with
        readyAfterMs := eachBelow maxTrackers
          (fun i ready => if hasBit activeMask i then graceDeadline now else ready)
          r.testAll.readyAfterMs }
      command := eachBelow maxTrackers
        (fun i slot => if hasBit activeMask i then
          { slot with trackerTestOnTps := reclamped.testAllWireTps } else slot) r.command }

/-! ## Publishing test flags -/

/-- `(int32_t)(now - ready_after) < 0`: the join grace of a tracker still runs. -/
def withheld (now : ℕ) (readyAfter : BitVec 32) : Bool :=
  decide (signedDistance (stamp now) readyAfter < 0)

/-- The command `test_all_reconcile` queues. -/
def testFlag (enabled : Bool) : BitVec 8 :=
  if enabled then pongFlagTestModeOn else pongFlagTestModeOff

/-- Trackers `test_all_reconcile` passes over whatever their grace: outside the layout, confirmed
or with a command pending. -/
def reconcileEligible (r : Receiver) (i : ℕ) : Bool :=
  hasBit (r.tdma.layout.activeMask &&& ~~~r.testAll.confirmedMask) i &&
    (r.command i).trackerRemoteCommand == pongFlagNormal

/-- One iteration of `test_all_reconcile`. The grace is read twice under one lock. -/
def reconcileTracker (now : ℕ) (enabled : Bool) (r : Receiver) (i : ℕ) (slot : CommandSlot) :
    CommandSlot :=
  if r.reconcileEligible i && !withheld now (r.testAll.readyAfterMs i) then
    { slot with
      trackerTestOnTps := if enabled then r.testAllWireTps else slot.trackerTestOnTps
      trackerRemoteCommand := testFlag enabled }
  else slot

/-- The critical section of `test_all_reconcile`. -/
def testAllReconcile (now : ℕ) (enabled : Bool) (r : Receiver) : Receiver :=
  if r.testAll.stateValid && !r.testAll.broadcasting then
    { r with command := eachBelow maxTrackers (r.reconcileTracker now enabled) r.command }
  else r

/-- `esb_publish_test_flag_mask`. -/
def publishTestFlagMask (commandFlag : BitVec 8) (mask : TrackerMask) (now : ℕ) (r : Receiver) :
    Receiver :=
  { r with command := eachBelow maxTrackers (fun i slot =>
      if hasBit mask i && slot.trackerRemoteCommand == pongFlagNormal &&
          !withheld now (r.testAll.readyAfterMs i) then
        { slot with trackerRemoteCommand := commandFlag }
      else slot) r.command }

/-! ## Test commands -/

/-- A targeted command owns the policy: it bumps the generation, drops the sticky state and
publishes rate and flag of its tracker. -/
def sendTest (trackerId : ℕ) (tps : BitVec 16) (flag : BitVec 8) (r : Receiver) : Receiver :=
  let superseded := testAllInvalidate
    { r with testAll := { r.testAll with generation := r.testAll.generation + 1 } }
  superseded.withCommand trackerId { r.command trackerId with
    trackerTestOnTps := tps
    trackerRemoteCommand := flag }

/-- `esb_send_remote_command_test_on`. -/
def sendTestOn (trackerId : ℕ) (tps : BitVec 16) (r : Receiver) : Receiver :=
  if trackerId ≥ maxTrackers then r else r.sendTest trackerId tps pongFlagTestModeOn

/-- `esb_send_remote_command_test_off`. -/
def sendTestOff (trackerId : ℕ) (r : Receiver) : Receiver :=
  if trackerId ≥ maxTrackers then r else r.sendTest trackerId 0 pongFlagTestModeOff

/-- An expired grace is cleared, a running one kept. -/
def clearExpired (now : ℕ) (readyAfter : BitVec 32) : BitVec 32 :=
  if withheld now readyAfter then readyAfter else 0

/-- The policy an all-target command installs. -/
def installPolicy (command : AllCommand) (r : Receiver) : Receiver :=
  match command with
  | .on tps =>
    let requested := esbAutoLossInvalidate { r with testAll := { r.testAll with
      stateValid := true
      enabled := true
      confirmedMask := 0
      requestedTps := tps } }
    { requested with testAll := { requested.testAll with
        effectiveTps := requested.testAllEffective r.tdma.layout.dynamicActiveCount } }
  | .off =>
    { r with testAll := { r.testAll with
        stateValid := true
        enabled := false
        confirmedMask := 0
        effectiveTps := 0 } }

/-- The rate an all-target command leaves with every tracker. -/
def announcedTps (command : AllCommand) (installed : Receiver) : BitVec 16 :=
  match command with
  | .on _ => installed.testAllWireTps
  | .off => 0

/-- The final critical section of an all-target command that still owns its token. -/
def publishAll (command : AllCommand) (mask : TrackerMask) (r : Receiver) : Receiver :=
  let installed := r.installPolicy command
  let now := r.tdma.uptime
  let announced := { installed with
    testAll := { installed.testAll with
      readyAfterMs := eachBelow maxTrackers (fun _ ready => clearExpired now ready)
        installed.testAll.readyAfterMs }
    command := eachBelow maxTrackers
      (fun _ slot => { slot with trackerTestOnTps := installed.announcedTps command })
      installed.command }
  let published := announced.publishTestFlagMask command.flag mask now
  { published with testAll := { published.testAll with broadcasting := false } }

/-! ## What the policy leaves alone -/

section Frames

variable (r : Receiver)

theorem testAllNoteLayout_eq (oldMask newMask : TrackerMask) (now : ℕ) :
    r.testAllNoteLayout oldMask newMask now = { r with
      testAll := (r.testAllNoteLayout oldMask newMask now).testAll
      command := (r.testAllNoteLayout oldMask newMask now).command } := by
  unfold testAllNoteLayout
  split <;> rfl

theorem testAllUpdateEffective_eq (activeCount now : ℕ) :
    r.testAllUpdateEffective activeCount now = { r with
      testAll := (r.testAllUpdateEffective activeCount now).testAll
      command := (r.testAllUpdateEffective activeCount now).command } := by
  unfold testAllUpdateEffective
  split
  · rfl
  · split <;> rfl

theorem testAllReconcile_eq (now : ℕ) (enabled : Bool) :
    r.testAllReconcile now enabled = { r with
      command := (r.testAllReconcile now enabled).command } := by
  unfold testAllReconcile
  split <;> rfl

/-- Turning the policy off leaves the evidence alone; turning it on drops it. -/
theorem publishAll_eq (command : AllCommand) (mask : TrackerMask) :
    r.publishAll command mask = { (match command with
        | .on _ => r.esbAutoLossInvalidate
        | .off => r) with
      testAll := (r.publishAll command mask).testAll
      command := (r.publishAll command mask).command } := by
  cases command <;> rfl

end Frames

end Receiver

end SlimeReceiver
