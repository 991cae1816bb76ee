import SlimeReceiver.Tdma.State
import SlimeReceiver.Library.CountedLoop

/-! # The loss controller

`tdma_loss_controller_update`, which runs once per statistics tick with the scheduler locked.

* **`LossTickInput`** — what a tick reads from the other subsystems.
* **`tallyTracker`**, **`tickTally`** — the loop over the trackers.
* **`judgePool`** — the verdict on a pool of at least `TDMA_LOSS_MIN_SAMPLES` samples.
* **`lossControllerUpdate`** — one tick, and `lossControllerUpdate_result`, everything it can do. -/

namespace SlimeReceiver

open Function (update)

/-- `TDMA_LOSS_TRIGGER_PERMILLE`. -/
def tdmaLossTriggerPermille : ℕ := 200
/-- `TDMA_LOSS_TRIGGER_TICKS`. -/
def tdmaLossTriggerTicks : ℕ := 5
/-- `TDMA_LOSS_RECOVER_PERMILLE`. -/
def tdmaLossRecoverPermille : ℕ := 50
/-- `TDMA_LOSS_RECOVER_TICKS`. -/
def tdmaLossRecoverTicks : ℕ := 10
/-- `TDMA_LOSS_PROBE_PERMILLE`. -/
def tdmaLossProbePermille : ℕ := 100
/-- `TDMA_LOSS_PROBE_TICKS`. -/
def tdmaLossProbeTicks : ℕ := 60
/-- `TDMA_LOSS_MIN_SAMPLES`. -/
def tdmaLossMinSamples : ℕ := 100

/-! ## Input of a tick -/

/-- What a tick reads that the scheduler does not own. The counters are `uint32_t` values. -/
structure LossTickInput where
  /-- `decision_received`, `decision_gaps` and `restart_events` of each tracker. -/
  received : ℕ → ℕ
  gaps : ℕ → ℕ
  restarts : ℕ → ℕ
  /-- `decision_ready_mask`. -/
  decisionReadyMask : TrackerMask
  /-- The conjuncts of `eligible` that concern the radio, pairing, collection, OTA and test-all. -/
  subsystemsIdle : Bool
  /-- `data_collect_is_active() || data_collect_batch_is_active()`. -/
  collecting : Bool
  /-- An OTA relay, a channel change or a radio fault. -/
  radioOccupied : Bool
  /-- `test_all_state_valid && test_all_enabled`. -/
  testAllInForce : Bool

/-- The part of `struct esb_auto_loss_snapshot` a tick uses. -/
structure AutoLossSnapshot where
  received : ℕ → ℕ
  gaps : ℕ → ℕ
  restarts : ℕ → ℕ
  readyMask : TrackerMask
  eligible : Bool

/-- `esb_get_auto_loss_snapshot`. -/
def Tdma.autoLossSnapshot (input : LossTickInput) (t : Tdma) : AutoLossSnapshot where
  received := input.received
  gaps := input.gaps
  restarts := input.restarts
  readyMask := input.decisionReadyMask &&& t.layout.activeMask
  eligible := input.subsystemsIdle && t.layout.activeMask == t.shadow.desiredMask &&
    t.shadow.pendingJoinMask == 0#32 && t.shadow.pendingLeaveMask == 0#32

/-! ## The loop over the trackers -/

/-- The variables of the loop: the sums of the tick, the boundary flag, and the counters kept for
the next tick. -/
structure TickTally where
  tickReceived : ℕ
  tickGaps : ℕ
  discontinuity : Bool
  prevRecv : ℕ → ℕ
  prevGaps : ℕ → ℕ
  prevRestarts : ℕ → ℕ

/-- One iteration. A counter that ran backwards or a restart is a boundary, never loss. -/
def tallyTracker (evidence : AutoLossSnapshot) (activeMask : TrackerMask) (tally : TickTally)
    (i : ℕ) : TickTally :=
  let advanced := { tally with
    prevRecv := update tally.prevRecv i (evidence.received i)
    prevGaps := update tally.prevGaps i (evidence.gaps i)
    prevRestarts := update tally.prevRestarts i (evidence.restarts i) }
  if !hasBit activeMask i then advanced
  else if evidence.received i < tally.prevRecv i || evidence.gaps i < tally.prevGaps i ||
      evidence.restarts i != tally.prevRestarts i then
    { advanced with discontinuity := true }
  else
    let deltaRecv := evidence.received i - tally.prevRecv i
    let deltaGaps := evidence.gaps i - tally.prevGaps i
    if (deltaRecv + deltaGaps) % 2 ^ 32 = 0 then advanced
    else
      { advanced with
        tickReceived := (tally.tickReceived + deltaRecv) % 2 ^ 32
        tickGaps := (tally.tickGaps + deltaGaps) % 2 ^ 32 }

/-- The loop of a tick. -/
def Tdma.tickTally (input : LossTickInput) (t : Tdma) : TickTally :=
  forBelow maxTrackers (tallyTracker (t.autoLossSnapshot input) t.layout.activeMask)
    { tickReceived := 0
      tickGaps := 0
      discontinuity := t.loss.rxDiscontinuityPending
      prevRecv := t.loss.tdmaPrevRecv
      prevGaps := t.loss.tdmaPrevGaps
      prevRestarts := t.loss.tdmaPrevRestarts }

/-! ## Judging a pool -/

/-- What a judged pool does to the requested level. -/
inductive LevelChange
  | keep
  | raise
  | lower
  deriving DecidableEq, Repr

/-- `scaled_gaps > TDMA_LOSS_TRIGGER_PERMILLE * pool_samples`. -/
def aboveTrigger (poolGaps poolSamples : ℕ) : Bool :=
  decide (poolGaps * 1000 > tdmaLossTriggerPermille * poolSamples)

/-- `scaled_gaps < TDMA_LOSS_RECOVER_PERMILLE * pool_samples`. -/
def belowRecover (poolGaps poolSamples : ℕ) : Bool :=
  decide (poolGaps * 1000 < tdmaLossRecoverPermille * poolSamples)

/-- `scaled_gaps < TDMA_LOSS_PROBE_PERMILLE * pool_samples`. -/
def belowProbe (poolGaps poolSamples : ℕ) : Bool :=
  decide (poolGaps * 1000 < tdmaLossProbePermille * poolSamples)

/-- A streak extended by the ticks of a pool that counts for it, else broken. -/
def creditStreak (counts : Bool) (streak creditedTicks limit : ℕ) : ℕ :=
  if counts then min (streak + creditedTicks) limit else 0

namespace LossController

/-- The streaks after a pool was judged; the pool starts again. -/
def creditPool (poolSamples : ℕ) (c : LossController) : LossController :=
  { c with
    poolReceived := 0
    poolGaps := 0
    poolTicks := 0
    triggerStreakTicks := creditStreak (aboveTrigger c.poolGaps poolSamples)
      c.triggerStreakTicks c.poolTicks tdmaLossTriggerTicks
    recoverStreakTicks := creditStreak (belowRecover c.poolGaps poolSamples)
      c.recoverStreakTicks c.poolTicks tdmaLossRecoverTicks
    probeStreakTicks := creditStreak (belowProbe c.poolGaps poolSamples)
      c.probeStreakTicks c.poolTicks tdmaLossProbeTicks }

/-- The level change the streaks ask for. -/
def levelChange (c : LossController) : LevelChange :=
  if c.triggerStreakTicks ≥ tdmaLossTriggerTicks && decide (c.capLevel < tdmaCapLevelMax) then .raise
  else if (c.recoverStreakTicks ≥ tdmaLossRecoverTicks ||
      c.probeStreakTicks ≥ tdmaLossProbeTicks) && decide (c.capLevel > 0) then .lower
  else .keep

/-- Every change of the level starts new windows. -/
def applyChange (change : LevelChange) (c : LossController) : LossController :=
  match change with
  | .keep => c
  | .raise => { c with capLevel := c.capLevel + 1 }.resetWindows
  | .lower => { c with capLevel := c.capLevel - 1 }.resetWindows

/-- The pool with the sums of one more nonempty tick. -/
def poolTick (tickReceived tickGaps : ℕ) (c : LossController) : LossController :=
  { c with
    poolReceived := (c.poolReceived + tickReceived) % 2 ^ 32
    poolGaps := (c.poolGaps + tickGaps) % 2 ^ 32
    poolTicks := (c.poolTicks + 1) % 256 }

/-- `pool_samples`. -/
def poolSamples (c : LossController) : ℕ := (c.poolReceived + c.poolGaps) % 2 ^ 32

end LossController

/-! ## One tick -/

/-- How a tick ends. -/
inductive TickOutcome
  /-- A boundary or an excluded mode. -/
  | excluded
  /-- The first tick with all trackers ready only draws the common boundary. -/
  | rendezvous
  /-- The requested level is not published yet. -/
  | unpublished
  | idle
  /-- The pool is still too small to judge. -/
  | pooled
  | judged (poolReceived poolGaps creditedTicks : ℕ) (change : LevelChange)
  deriving DecidableEq, Repr

/-- The controller after the loop, with the snapshots advanced and the level a collection left. -/
def Tdma.tickStart (input : LossTickInput) (t : Tdma) : LossController :=
  { t.loss with
    rxDiscontinuityPending := false
    tdmaPrevRecv := (t.tickTally input).prevRecv
    tdmaPrevGaps := (t.tickTally input).prevGaps
    tdmaPrevRestarts := (t.tickTally input).prevRestarts
    capLevel := if input.collecting then t.loss.publishedCapLevel else t.loss.capLevel }

/-- The exclusions of a tick. -/
def Tdma.tickExcluded (input : LossTickInput) (t : Tdma) : Bool :=
  (t.tickTally input).discontinuity || !(t.autoLossSnapshot input).eligible ||
    ((t.autoLossSnapshot input).readyMask &&& t.layout.activeMask) != t.layout.activeMask ||
    input.collecting || input.radioOccupied || input.testAllInForce

/-- `tdma_decision_ready` after an excluded tick. -/
def Tdma.excludedReady (input : LossTickInput) (t : Tdma) : Bool :=
  (t.autoLossSnapshot input).eligible &&
    (t.autoLossSnapshot input).readyMask == t.layout.activeMask

/-- The controller and outcome of a tick whose pool reached the sample count. -/
def LossController.judgePool (c : LossController) : LossController × TickOutcome :=
  let credited := c.creditPool c.poolSamples
  (credited.applyChange credited.levelChange,
    .judged c.poolReceived c.poolGaps c.poolTicks credited.levelChange)

/-- `tdma_loss_controller_update`. -/
def Tdma.lossControllerUpdate (input : LossTickInput) (t : Tdma) : LossController × TickOutcome :=
  let c := t.tickStart input
  let tally := t.tickTally input
  if t.tickExcluded input then
    ({ c with decisionReady := t.excludedReady input }.resetWindows, .excluded)
  else if !c.decisionReady then ({ c with decisionReady := true }.resetWindows, .rendezvous)
  else if c.capLevel != c.publishedCapLevel then (c.resetWindows, .unpublished)
  else if (tally.tickReceived + tally.tickGaps) % 2 ^ 32 == 0 then (c.resetWindows, .idle)
  else
    let pooled := c.poolTick tally.tickReceived tally.tickGaps
    if pooled.poolSamples < tdmaLossMinSamples then (pooled, .pooled) else pooled.judgePool

/-- Everything a tick can do, with the guards that led there. -/
inductive TickResult (input : LossTickInput) (t : Tdma) : LossController × TickOutcome → Prop
  | excluded : t.tickExcluded input = true → TickResult input t
      ({ t.tickStart input with decisionReady := t.excludedReady input }.resetWindows, .excluded)
  | rendezvous : t.tickExcluded input = false → t.loss.decisionReady = false → TickResult input t
      ({ t.tickStart input with decisionReady := true }.resetWindows, .rendezvous)
  | unpublished : t.tickExcluded input = false → t.loss.capLevel ≠ t.loss.publishedCapLevel →
      TickResult input t ((t.tickStart input).resetWindows, .unpublished)
  | idle : t.tickExcluded input = false → t.loss.capLevel = t.loss.publishedCapLevel →
      TickResult input t ((t.tickStart input).resetWindows, .idle)
  | pooled (c : LossController) : t.tickExcluded input = false →
      t.loss.capLevel = t.loss.publishedCapLevel →
      c = (t.tickStart input).poolTick (t.tickTally input).tickReceived
        (t.tickTally input).tickGaps →
      ((t.tickTally input).tickReceived + (t.tickTally input).tickGaps) % 2 ^ 32 ≠ 0 →
      c.poolSamples < tdmaLossMinSamples → TickResult input t (c, .pooled)
  | judged (c : LossController) : t.tickExcluded input = false →
      t.loss.capLevel = t.loss.publishedCapLevel →
      c = (t.tickStart input).poolTick (t.tickTally input).tickReceived
        (t.tickTally input).tickGaps →
      tdmaLossMinSamples ≤ c.poolSamples → TickResult input t c.judgePool

/-- Outside a collection the loop leaves the requested level alone. -/
theorem Tdma.tickStart_capLevel {input : LossTickInput} {t : Tdma}
    (h : t.tickExcluded input = false) : (t.tickStart input).capLevel = t.loss.capLevel := by
  have hcollecting : input.collecting = false := by
    simp only [tickExcluded, Bool.or_eq_false_iff] at h
    exact h.1.1.2
  simp [tickStart, hcollecting]

/-- **Inversion of a tick.** -/
theorem Tdma.lossControllerUpdate_result (input : LossTickInput) (t : Tdma) :
    TickResult input t (t.lossControllerUpdate input) := by
  unfold lossControllerUpdate
  simp only [Bool.not_eq_true', bne_iff_ne, beq_iff_eq]
  split
  case isTrue hexcluded => exact .excluded hexcluded
  case isFalse hexcluded =>
    have hin : t.tickExcluded input = false := by simpa using hexcluded
    have hcap := tickStart_capLevel hin
    split
    case isTrue hready => exact .rendezvous hin hready
    case isFalse hready =>
      split
      case isTrue hlevel => exact .unpublished hin (by rwa [hcap] at hlevel)
      case isFalse hlevel =>
        have hequal : t.loss.capLevel = t.loss.publishedCapLevel := by
          rw [hcap] at hlevel
          exact not_not.mp hlevel
        split
        case isTrue hidle => exact .idle hin hequal
        case isFalse hidle =>
          split
          case isTrue hsmall => exact .pooled _ hin hequal rfl hidle hsmall
          case isFalse hsmall => exact .judged _ hin hequal rfl (not_lt.mp hsmall)

end SlimeReceiver
