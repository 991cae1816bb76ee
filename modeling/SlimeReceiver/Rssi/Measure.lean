import SlimeReceiver.Library.Observing
import Mathlib.Data.BitVec

/-! # The energy measurements of a scan

`rssi_scan.c` and `rssi_scan_fem.c` up to the scan itself. Whatever the hardware and the drivers do is observed one
moment at a time: each read of a register, of the cycle counter or of the result of a driver is a moment of its own,
and an event register is set from the moment its event arrives until it is cleared.

* **`Moment`**, **`World`** — what is observed, and what the code stores.
* **`waitForEventAndClear`** — the wait for an event.
* **`scanFemPrepare`**, **`scanFemRelease`** — the front end.
* **`channelMeasureMinN`**, **`measureBounded`** — the measurements. -/

namespace SlimeReceiver

namespace Rssi

open Observing (state change observe repeatUntil)

/-! ## Observations -/

/-- The event registers the code waits for: those of the radio, and `COMPARE3` of the timer. -/
inductive Event
  | ready
  | rssiEnd
  | disabled
  | address
  | compare3
  deriving DecidableEq

/-- What can be read at one moment, and the events that arrived since the moment before. -/
structure Moment where
  arrived : List Event
  /-- `k_cycle_get_32`. -/
  cycles : BitVec 32
  /-- `RADIO->STATE` is `Disabled`. -/
  disabled : Bool
  /-- `RADIO->RSSISAMPLE`. -/
  rssiSample : BitVec 32
  /-- What a driver returns. -/
  result : ℤ
  deriving DecidableEq

/-- The tasks of the radio. -/
inductive Task
  | rxEn
  | start
  | rssiStart
  | disable
  deriving DecidableEq

/-- An access to the hardware. -/
inductive Access
  | saw (moment : Moment)
  | task (task : Task)
  deriving DecidableEq

/-! ## The state -/

/-- The hardware: the event registers, whether the radio was disabled when last observed, and all accesses. -/
structure Hardware where
  pending : List Event
  disabled : Bool
  accesses : List Access
  deriving DecidableEq

/-- The registers of the radio that only the code sets. -/
structure Registers where
  shorts : BitVec 32
  rxAddresses : BitVec 32
  frequency : BitVec 8
  deriving DecidableEq

/-- The static variables of `rssi_scan_fem.c`, with the result of each cleanup step so far. -/
structure FrontEnd where
  timerOwned : Bool
  femOwned : Bool
  cleanupFault : Bool
  cleanups : List ℤ
  deriving DecidableEq

/-- `struct rssi_scan_observation`. -/
structure Observation where
  peak : BitVec 8
  quietFloor : BitVec 8
  samples : BitVec 16
  coverageUs : BitVec 32
  deriving DecidableEq

/-- The state, with the destinations of both measurements. -/
structure World where
  hardware : Hardware
  registers : Registers
  fem : FrontEnd
  out : Observation
  lowest : BitVec 8
  deriving DecidableEq

namespace World

/-- A moment is observed. -/
def see (m : Moment) (w : World) : World :=
  { w with hardware :=
      { pending := w.hardware.pending ++ m.arrived
        disabled := m.disabled
        accesses := w.hardware.accesses ++ [.saw m] } }

/-- A task is triggered. -/
def trigger (t : Task) (w : World) : World :=
  { w with hardware := { w.hardware with accesses := w.hardware.accesses ++ [.task t] } }

/-- An event register is cleared. -/
def clear (e : Event) (w : World) : World :=
  { w with hardware := { w.hardware with pending := w.hardware.pending.filter (· ≠ e) } }

end World

/-! ## The hardware -/

/-- `EINVAL`. -/
def einval : ℤ := -22
/-- `EBUSY`. -/
def ebusy : ℤ := -16
/-- `EIO`. -/
def eio : ℤ := -5
/-- `EAGAIN`. -/
def eagain : ℤ := -11
/-- `ETIMEDOUT`. -/
def etimedout : ℤ := -116

/-- `RADIO_SHORTS_END_START_Msk`. -/
def shortsEndStart : BitVec 32 := 0x20

/-- The rate of the cycle counter, and whether the board has a front end. -/
structure Board where
  hz : ℕ
  mpslFem : Bool

/-- `k_cyc_to_us_floor32`. -/
def cycToUsFloor32 (hz : ℕ) (cycles : BitVec 32) : BitVec 32 := BitVec.ofNat 32 (cycles.toNat * 1000000 / hz)

/-- `k_us_to_cyc_ceil32`. -/
def usToCycCeil32 (hz us : ℕ) : BitVec 32 := BitVec.ofNat 32 ((us * hz + 999999) / 1000000)

/-- `k_cycle_get_32`. -/
def cycleGet : Observing World Moment (BitVec 32) := do
  let m ← observe World.see
  pure m.cycles

/-- `NRF_RADIO->STATE == RADIO_STATE_STATE_Disabled`. -/
def radioDisabled : Observing World Moment Bool := do
  let m ← observe World.see
  pure m.disabled

/-- `NRF_RADIO->RSSISAMPLE & 0x7F`. -/
def rssiSample : Observing World Moment (BitVec 8) := do
  let m ← observe World.see
  pure ((m.rssiSample &&& 0x7F).setWidth 8)

/-- A driver is called. -/
def driver : Observing World Moment ℤ := do
  let m ← observe World.see
  pure m.result

/-- An event register is read. -/
def eventSet (e : Event) : Observing World Moment Bool := do
  let _ ← observe World.see
  let w ← state
  pure (decide (e ∈ w.hardware.pending))

/-- A task of the radio. -/
def task (t : Task) : Observing World Moment Unit := change (World.trigger t)

/-- The loop that waits for an event: it is read once more after the time is over. -/
def awaitEvent (hz : ℕ) (e : Event) (timeoutUs : BitVec 32) : Observing World Moment Bool := do
  let start ← cycleGet
  repeatUntil do
    let isSet ← eventSet e
    if isSet then pure (some true)
    else do
      let now ← cycleGet
      if timeoutUs ≤ cycToUsFloor32 hz (now - start) then do
        let isSet ← eventSet e
        pure (some isSet)
      else pure none

/-- `wait_for_event_and_clear`. -/
def waitForEventAndClear (hz : ℕ) (e : Event) (timeoutUs : BitVec 32) : Observing World Moment Bool := do
  let seen ← awaitEvent hz e timeoutUs
  if seen then do
    change (World.clear e)
    pure true
  else pure false

/-! ## The front end -/

/-- The static variables at the start. -/
def FrontEnd.init : FrontEnd := ⟨false, false, false, []⟩

/-- `rssi_scan_fem_is_safe`. -/
def FrontEnd.isSafe (f : FrontEnd) : Bool := !f.timerOwned && !f.femOwned && !f.cleanupFault

/-- A step of the cleanup, with its result. -/
def cleanupStep : Observing World Moment ℤ := do
  let result ← driver
  change fun w => { w with fem := { w.fem with cleanups := w.fem.cleanups ++ [result] } }
  pure result

/-- `mpsl_fem_lna_configuration_clear` and `mpsl_fem_disable`, if the front end is owned. -/
def femOff : Observing World Moment ℤ := do
  let w ← state
  if w.fem.femOwned then do
    let cleared ← cleanupStep
    let disabled ← cleanupStep
    change fun w => { w with fem := { w.fem with femOwned := false } }
    pure (if cleared ≠ 0 ∨ disabled ≠ 0 then eio else 0)
  else pure 0

/-- `rssi_scan_fem_release`. -/
def femRelease : Observing World Moment ℤ := do
  let err ← femOff
  change fun w => { w with fem :=
    { w.fem with timerOwned := false, cleanupFault := w.fem.cleanupFault || decide (err ≠ 0) } }
  let w ← state
  pure (if w.fem.cleanupFault then eio else 0)

/-- The label `fail` of `rssi_scan_fem_prepare`. -/
def femFail (err : ℤ) : Observing World Moment ℤ := do
  let released ← femRelease
  pure (if released ≠ 0 then eio else err)

/-- The wait of `rssi_scan_fem_prepare` for `COMPARE3`. -/
def femAwait (hz : ℕ) : Observing World Moment ℤ := do
  let settled ← awaitEvent hz .compare3 1000
  if settled then pure 0 else femFail etimedout

/-- `rssi_scan_fem_prepare` once the timer is initialized. -/
def femSettle (hz : ℕ) : Observing World Moment ℤ := do
  change fun w => { w with fem := { w.fem with timerOwned := true } }
  change (World.clear .compare3)
  change fun w => { w with fem := { w.fem with femOwned := true } }
  let err ← driver
  if err ≠ 0 then femFail err else femAwait hz

/-- `rssi_scan_fem_prepare`. -/
def femPrepare (hz : ℕ) : Observing World Moment ℤ := do
  let w ← state
  if w.fem.cleanupFault then pure eio
  else if w.fem.timerOwned || w.fem.femOwned then pure ebusy
  else do
    let disabled ← radioDisabled
    if !disabled then pure ebusy
    else do
      let err ← driver
      if err ≠ 0 then pure err else femSettle hz

/-- `rssi_scan_fem_prepare`, also without a front end. -/
def scanFemPrepare (b : Board) : Observing World Moment ℤ := if b.mpslFem then femPrepare b.hz else pure 0

/-- `rssi_scan_fem_release`, also without a front end. -/
def scanFemRelease (b : Board) : Observing World Moment ℤ := if b.mpslFem then femRelease else pure 0

/-! ## The least sample -/

/-- The loop over the samples of `rssi_scan_channel_measure_min_n`. -/
def minSamples (hz : ℕ) : ℕ → BitVec 8 → Observing World Moment (ℤ × BitVec 8)
  | 0, least => pure (0, least)
  | n + 1, least => do
    change (World.clear .rssiEnd)
    task .rssiStart
    let ended ← waitForEventAndClear hz .rssiEnd 200
    if !ended then pure (etimedout, least)
    else do
      let sample ← rssiSample
      minSamples hz n (if sample < least then sample else least)

/-- `rssi_scan_channel_measure_min_n` while the radio receives. -/
def minListen (b : Board) (samples : ℕ) : Observing World Moment (ℤ × BitVec 8) := do
  task .rxEn
  let ready ← waitForEventAndClear b.hz .ready 200
  if !ready then pure (etimedout, 127)
  else do
    task .start
    minSamples b.hz samples 127

/-- The registers and the events before the radio is enabled. -/
def World.tune (channel : BitVec 8) (w : World) : World :=
  (({ w with registers := { w.registers with frequency := channel } }.clear .ready).clear .rssiEnd).clear .disabled

/-- The label `disable` of both measurements, up to the last look at the radio. -/
def closeVisit (b : Board) (err : ℤ) : Observing World Moment ℤ := do
  task .disable
  let disabled ← waitForEventAndClear b.hz .disabled 200
  let femErr ← scanFemRelease b
  pure (if femErr ≠ 0 then femErr else if disabled then err else etimedout)

/-- `rssi_scan_channel_measure_min_n`. -/
def channelMeasureMinN (b : Board) (channel : BitVec 8) (samples : ℕ) : Observing World Moment ℤ := do
  let disabled ← radioDisabled
  if !disabled then pure ebusy
  else do
    let saved ← state
    change fun w => { w with registers := { w.registers with shorts := shortsEndStart } }
    let err ← scanFemPrepare b
    if err ≠ 0 then do
      let _ ← scanFemRelease b
      change fun w => { w with registers := { w.registers with shorts := saved.registers.shorts } }
      pure err
    else do
      change (World.tune channel)
      let heard ← minListen b samples
      let err ← closeVisit b heard.1
      let disabled ← radioDisabled
      if !disabled then pure eio
      else do
        change fun w => { w with registers := { w.registers with shorts := saved.registers.shorts } }
        change fun w => { w with lowest := if err = 0 then heard.2 else w.lowest }
        pure err

/-! ## The bounded measurement -/

/-- `RSSI_SCAN_SLOT_US`. -/
def slotUs : ℕ := 100

/-- `RSSI_SCAN_SLICE_US / RSSI_SCAN_SLOT_US`. -/
def sliceSlots : ℕ := 500 / slotUs

/-- The cycles from the start of a slice to the end of a slot. -/
def slotEnd (hz slot : ℕ) : BitVec 32 := BitVec.ofNat 32 (slot + 1) * usToCycCeil32 hz slotUs

/-- An observation without a sample. -/
def Observation.none : Observation := ⟨127, 0, 0, 0⟩

/-- A sample is added. -/
def Observation.add (value : BitVec 8) (o : Observation) : Observation :=
  { o with
    peak := if value < o.peak then value else o.peak
    quietFloor := if o.quietFloor < value then value else o.quietFloor
    samples := o.samples + 1 }

/-- One slot of `rssi_scan_measure_bounded`. -/
def slotPass (hz : ℕ) (start : BitVec 32) (slot : ℕ) (result : Observation) :
    Observing World Moment (ℤ × Observation) := do
  let now ← cycleGet
  if slotEnd hz slot ≤ now - start then pure (etimedout, result)
  else do
    change (World.clear .rssiEnd)
    task .rssiStart
    let ended ← waitForEventAndClear hz .rssiEnd (BitVec.ofNat 32 slotUs)
    if !ended then pure (etimedout, result)
    else do
      let now ← cycleGet
      if slotEnd hz slot ≤ now - start then pure (etimedout, result)
      else do
        let value ← rssiSample
        repeatUntil do
          let now ← cycleGet
          pure (if now - start < slotEnd hz slot then none else some ())
        let now ← cycleGet
        if slotEnd hz slot < now - start then pure (etimedout, result.add value)
        else pure (0, result.add value)

/-- The slots from `slot` on. -/
def slotPasses (hz : ℕ) (start : BitVec 32) : ℕ → ℕ → Observation → Observing World Moment (ℤ × Observation)
  | 0, _, result => pure (0, result)
  | n + 1, slot, result => do
    let passed ← slotPass hz start slot result
    if passed.1 ≠ 0 then pure passed else slotPasses hz start n (slot + 1) passed.2

/-- `rssi_scan_measure_bounded` while the radio receives. -/
def boundedListen (b : Board) : Observing World Moment (ℤ × Observation) := do
  task .rxEn
  let ready ← waitForEventAndClear b.hz .ready 200
  if !ready then pure (etimedout, .none)
  else do
    task .start
    let start ← cycleGet
    let passed ← slotPasses b.hz start sliceSlots 0 .none
    if passed.1 ≠ 0 then pure passed
    else do
      let result := { passed.2 with
        coverageUs := cycToUsFloor32 b.hz (slotEnd b.hz (sliceSlots - 1) - 1) }
      let address ← eventSet .address
      pure (if address then eagain else 0, result)

/-- The registers and the events before the radio is enabled; only paired pipes are received. -/
def World.tunePaired (channel : BitVec 8) (w : World) : World :=
  (({ w with registers := ⟨shortsEndStart, 0xFE, channel⟩ }.clear .address).clear .ready).clear .disabled

/-- `rssi_scan_measure_bounded`; `valid` says that `out` is not null. -/
def measureBounded (b : Board) (channel : BitVec 8) (valid : Bool) : Observing World Moment ℤ :=
  if 100 < channel ∨ valid = false then pure einval
  else do
    let disabled ← radioDisabled
    if !disabled then pure ebusy
    else do
      let saved ← state
      let err ← scanFemPrepare b
      if err ≠ 0 then do
        let _ ← scanFemRelease b
        pure err
      else do
        change (World.tunePaired channel)
        let heard ← boundedListen b
        let err ← closeVisit b heard.1
        let disabled ← radioDisabled
        if !disabled then pure eio
        else do
          change fun w => { w with registers :=
            { w.registers with
              shorts := saved.registers.shorts
              rxAddresses := saved.registers.rxAddresses } }
          change fun w => { w with out := if err = 0 then heard.2 else w.out }
          pure err

end Rssi

end SlimeReceiver
