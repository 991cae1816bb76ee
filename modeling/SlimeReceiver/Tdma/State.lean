import SlimeReceiver.Library.WordMask
import SlimeReceiver.Library.WrappingClock

/-! # State of the TDMA scheduler

The static variables of `connection/esb.c` that membership, slot layout and the loss ladder work
on, grouped by the part that owns them. `tracker_slots[i].field` is written `field i`: the array
of slot records is a record of arrays, of which the code uses the first `maxTrackers` entries.

* **`TrackerRoster`** — the stored trackers.
* **`Shadow`** — evidence and desired membership (`tdma_shadow_*`, `tdma_membership_*`).
* **`Layout`** — the published slot words and what is remembered of the last publication.
* **`LossController`** — the ladder level, its judgement windows and the counter snapshots.
* **`StoreTask`** — how far the holder of `tracker_store_lock` has come in an operation that
  spans several critical sections. -/

namespace SlimeReceiver

/-- `MAX_TRACKERS`. -/
def maxTrackers : ℕ := 16

theorem one_le_maxTrackers : 1 ≤ maxTrackers := by decide

/-- A `uint32_t` with one bit per tracker id. -/
abbrev TrackerMask := BitVec 32

/-! ## Stored trackers -/

/-- The roster in RAM: `stored_trackers`, `stored_tracker_addr` and `tracker_store_ready`. The
count never exceeds the array. -/
structure TrackerRoster where
  /-- Ids below this count are stored. -/
  storedTrackers : ℕ
  storedTrackerAddr : ℕ → ℕ
  /-- The roster was restored from storage or cleared. -/
  storeReady : Bool
  stored_le : storedTrackers ≤ maxTrackers

/-- Before `tracker_store_restore` no tracker is stored. -/
def TrackerRoster.init : TrackerRoster where
  storedTrackers := 0
  storedTrackerAddr := fun _ => 0
  storeReady := false
  stored_le := Nat.zero_le _

/-! ## Desired membership -/

/-- `enum tdma_shadow_evidence`. -/
inductive ShadowEvidence
  | ping
  | data
  deriving DecidableEq, Repr

/-- `TDMA_SHADOW_FRESH_MS`, that is `PING_TIMEOUT_MS + 1000`. -/
def tdmaShadowFreshMs : ℕ := 6000

/-- `TDMA_SHADOW_LEAVE_GRACE_MS`. -/
def tdmaShadowLeaveGraceMs : ℕ := 15000

/-- `TDMA_MEMBERSHIP_COHORT_MS`. -/
def tdmaMembershipCohortMs : ℕ := 101

/-- Evidence of live trackers and the membership it asks for. -/
structure Shadow where
  lastSeenMs : ℕ → BitVec 32
  everPingMask : TrackerMask
  everDataMask : TrackerMask
  liveEvidenceMask : TrackerMask
  desiredMask : TrackerMask
  /-- Evidence that waits for the owner's next merge. -/
  pendingJoinMask : TrackerMask
  pendingLeaveMask : TrackerMask
  desiredChangedAtMs : BitVec 32
  membershipDeadlineMs : BitVec 32
  membershipDeadlineArmed : Bool

def Shadow.init : Shadow where
  lastSeenMs := fun _ => 0
  everPingMask := 0
  everDataMask := 0
  liveEvidenceMask := 0
  desiredMask := 0
  pendingJoinMask := 0
  pendingLeaveMask := 0
  desiredChangedAtMs := 0
  membershipDeadlineMs := 0
  membershipDeadlineArmed := false

/-! ## Published layout -/

/-- `TDMA_BASE_SLOT_TICKS`. -/
def tdmaBaseSlotTicks : ℕ := 16

/-- `TDMA_SLOT_TICKS_MAX_LEVEL0`. -/
def tdmaSlotTicksMaxLevel0 : ℕ := 64

/-- `TDMA_RECONFIG_MIN_MS`. -/
def tdmaReconfigMinMs : ℕ := 1000

/-- `TDMA_LOSS_RECONFIG_MIN_MS`. -/
def tdmaLossReconfigMinMs : ℕ := 15000

/-- `tdma_cap_ladder`: opportunities per second and tracker at each level. -/
def tdmaCapLadder : List ℕ := [220, 180, 150, 130, 115]

/-- `TDMA_CAP_LEVEL_MAX`. -/
def tdmaCapLevelMax : ℕ := tdmaCapLadder.length - 1

/-- The layout in force and the record of its publication. -/
structure Layout where
  /-- One word per tracker: slot, total slots, slot ticks, epoch. -/
  tdmaConfigPacked : ℕ → BitVec 32
  configEpoch : BitVec 8
  dynamicActiveCount : ℕ
  dynamicSlotTicks : ℕ
  activeMask : TrackerMask
  lastReconfigTime : ℕ
  lastReconfigValid : Bool

def Layout.init : Layout where
  tdmaConfigPacked := fun _ => 0
  configEpoch := 0
  dynamicActiveCount := 0
  dynamicSlotTicks := 0
  activeMask := 0
  lastReconfigTime := 0
  lastReconfigValid := false

/-! ## Loss ladder -/

/-- The loss controller: requested and published ladder level, the streaks and the pool of the
current judgement, and the counters seen at the previous tick. -/
structure LossController where
  capLevel : ℕ
  publishedCapLevel : ℕ
  triggerStreakTicks : ℕ
  recoverStreakTicks : ℕ
  probeStreakTicks : ℕ
  poolReceived : ℕ
  poolGaps : ℕ
  poolTicks : ℕ
  decisionReady : Bool
  /-- `tdma_rx_discontinuity_pending`: a boundary the next tick must not judge across. -/
  rxDiscontinuityPending : Bool
  tdmaPrevRecv : ℕ → ℕ
  tdmaPrevGaps : ℕ → ℕ
  tdmaPrevRestarts : ℕ → ℕ

def LossController.init : LossController where
  capLevel := 0
  publishedCapLevel := 0
  triggerStreakTicks := 0
  recoverStreakTicks := 0
  probeStreakTicks := 0
  poolReceived := 0
  poolGaps := 0
  poolTicks := 0
  decisionReady := false
  rxDiscontinuityPending := false
  tdmaPrevRecv := fun _ => 0
  tdmaPrevGaps := fun _ => 0
  tdmaPrevRestarts := fun _ => 0

/-- `tdma_loss_reset_windows`. -/
def LossController.resetWindows (c : LossController) : LossController :=
  { c with
    triggerStreakTicks := 0
    recoverStreakTicks := 0
    probeStreakTicks := 0
    poolReceived := 0
    poolGaps := 0
    poolTicks := 0 }

/-! ## The scheduler -/

/-- What the holder of `tracker_store_lock` still has to do, between two critical sections. -/
inductive StoreTask
  /-- The lock is free. -/
  | idle
  /-- `tdma_shadow_update` read the clock and is about to enter its critical section. -/
  | update (readAt : ℕ)
  /-- `tdma_recalculate(forced)` is about to make a pass. -/
  | recalculate (forced diagnosticsReset : Bool)
  deriving DecidableEq, Repr

/-- The TDMA scheduler. `uptime` is `k_uptime_get()` in milliseconds. -/
structure Tdma where
  uptime : ℕ
  roster : TrackerRoster
  shadow : Shadow
  layout : Layout
  loss : LossController
  storeTask : StoreTask

/-- The scheduler after reset of the receiver. -/
def Tdma.init : Tdma where
  uptime := 0
  roster := .init
  shadow := .init
  layout := .init
  loss := .init
  storeTask := .idle

end SlimeReceiver
