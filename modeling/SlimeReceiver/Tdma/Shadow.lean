import SlimeReceiver.Library.CountedLoop
import SlimeReceiver.Tdma.State

/-! # Evidence and desired membership

`tdma_shadow_observe`, `tdma_shadow_forget_tracker` and `tdma_shadow_merge_locked`. Each runs
inside one critical section, so each is a function of the scheduler state.

* **`tdmaShadowObserve`**, **`tdmaShadowForgetTracker`**, **`tdmaShadowMergeLocked`** — the code.
* **`mergeVerdict`** — what a merge decides for one tracker; `merge_desired`, `merge_live` and
  `merge_lastSeen` read a merged mask off it, so that later modules never unfold the loop. -/

namespace SlimeReceiver

open Function (update)

namespace Tdma

/-! ## Observation -/

/-- `tdma_shadow_observe`: valid evidence of a stored tracker. Evidence of a tracker that is not
desired yet queues a join and, when no deadline is running, starts one. -/
def tdmaShadowObserve (trackerId : ℕ) (evidence : ShadowEvidence) (t : Tdma) : Tdma :=
  if trackerId < t.roster.storedTrackers ∧ trackerId < maxTrackers then
    let nowMs := stamp t.uptime
    let seen := { t.shadow with
      lastSeenMs := update t.shadow.lastSeenMs trackerId nowMs
      everPingMask := match evidence with
        | .ping => setBit t.shadow.everPingMask trackerId
        | .data => t.shadow.everPingMask
      everDataMask := match evidence with
        | .ping => t.shadow.everDataMask
        | .data => setBit t.shadow.everDataMask trackerId
      liveEvidenceMask := setBit t.shadow.liveEvidenceMask trackerId }
    if hasBit t.shadow.desiredMask trackerId then
      { t with shadow := seen }
    else
      { t with shadow := { seen with
          pendingJoinMask := setBit t.shadow.pendingJoinMask trackerId
          membershipDeadlineMs :=
            if t.shadow.membershipDeadlineArmed then t.shadow.membershipDeadlineMs
            else nowMs + BitVec.ofNat 32 tdmaMembershipCohortMs
          membershipDeadlineArmed := true } }
  else t

/-- An observation touches nothing but the shadow. -/
theorem tdmaShadowObserve_eq (trackerId : ℕ) (evidence : ShadowEvidence) (t : Tdma) :
    t.tdmaShadowObserve trackerId evidence =
      { t with shadow := (t.tdmaShadowObserve trackerId evidence).shadow } := by
  unfold tdmaShadowObserve
  split
  · simp only []
    split <;> rfl
  · rfl

section Observe

variable {trackerId : ℕ} (evidence : ShadowEvidence) {t : Tdma}

@[simp] theorem tdmaShadowObserve_uptime :
    (t.tdmaShadowObserve trackerId evidence).uptime = t.uptime := by
  rw [tdmaShadowObserve_eq]

@[simp] theorem tdmaShadowObserve_roster :
    (t.tdmaShadowObserve trackerId evidence).roster = t.roster := by
  rw [tdmaShadowObserve_eq]

@[simp] theorem tdmaShadowObserve_layout :
    (t.tdmaShadowObserve trackerId evidence).layout = t.layout := by
  rw [tdmaShadowObserve_eq]

@[simp] theorem tdmaShadowObserve_loss :
    (t.tdmaShadowObserve trackerId evidence).loss = t.loss := by
  rw [tdmaShadowObserve_eq]

@[simp] theorem tdmaShadowObserve_storeTask :
    (t.tdmaShadowObserve trackerId evidence).storeTask = t.storeTask := by
  rw [tdmaShadowObserve_eq]

/-- An observation leaves the desired membership to the next merge. -/
@[simp] theorem tdmaShadowObserve_desiredMask :
    (t.tdmaShadowObserve trackerId evidence).shadow.desiredMask = t.shadow.desiredMask := by
  unfold tdmaShadowObserve
  split
  · simp only []
    split <;> rfl
  · rfl

variable (hid : trackerId < t.roster.storedTrackers)
include hid

theorem tdmaShadowObserve_liveEvidenceMask :
    (t.tdmaShadowObserve trackerId evidence).shadow.liveEvidenceMask =
      setBit t.shadow.liveEvidenceMask trackerId := by
  rw [tdmaShadowObserve.eq_def, if_pos ⟨hid, hid.trans_le t.roster.stored_le⟩]
  simp only []
  split <;> rfl

theorem tdmaShadowObserve_lastSeenMs :
    (t.tdmaShadowObserve trackerId evidence).shadow.lastSeenMs =
      update t.shadow.lastSeenMs trackerId (stamp t.uptime) := by
  rw [tdmaShadowObserve.eq_def, if_pos ⟨hid, hid.trans_le t.roster.stored_le⟩]
  simp only []
  split <;> rfl

theorem tdmaShadowObserve_pendingJoinMask :
    (t.tdmaShadowObserve trackerId evidence).shadow.pendingJoinMask =
      if hasBit t.shadow.desiredMask trackerId then t.shadow.pendingJoinMask
      else setBit t.shadow.pendingJoinMask trackerId := by
  rw [tdmaShadowObserve.eq_def, if_pos ⟨hid, hid.trans_le t.roster.stored_le⟩]
  simp only []
  split <;> rfl

theorem tdmaShadowObserve_armed :
    (t.tdmaShadowObserve trackerId evidence).shadow.membershipDeadlineArmed =
      (t.shadow.membershipDeadlineArmed || !hasBit t.shadow.desiredMask trackerId) := by
  rw [tdmaShadowObserve.eq_def, if_pos ⟨hid, hid.trans_le t.roster.stored_le⟩]
  simp only []
  split
  case isTrue h => simp [h]
  case isFalse h => simp [h]

end Observe

/-! ## Forgetting -/

/-- `tdma_shadow_forget_tracker`: drop everything known about a slot. The deadline stops when
nothing is left to publish. -/
def tdmaShadowForgetTracker (trackerId : ℕ) (t : Tdma) : Tdma :=
  if maxTrackers ≤ trackerId then t
  else
    let desiredMask := clearBit t.shadow.desiredMask trackerId
    let pendingJoinMask := clearBit t.shadow.pendingJoinMask trackerId
    { t with shadow := { t.shadow with
        lastSeenMs := update t.shadow.lastSeenMs trackerId 0
        everPingMask := clearBit t.shadow.everPingMask trackerId
        everDataMask := clearBit t.shadow.everDataMask trackerId
        liveEvidenceMask := clearBit t.shadow.liveEvidenceMask trackerId
        desiredMask := desiredMask
        pendingJoinMask := pendingJoinMask
        pendingLeaveMask := clearBit t.shadow.pendingLeaveMask trackerId
        membershipDeadlineArmed :=
          if desiredMask = t.layout.activeMask ∧ pendingJoinMask = 0#32 then false
          else t.shadow.membershipDeadlineArmed } }

/-- A forget touches nothing but the shadow. -/
theorem tdmaShadowForgetTracker_eq (trackerId : ℕ) (t : Tdma) :
    t.tdmaShadowForgetTracker trackerId =
      { t with shadow := (t.tdmaShadowForgetTracker trackerId).shadow } := by
  unfold tdmaShadowForgetTracker
  split <;> rfl

/-- The shadow after a forget. -/
theorem tdmaShadowForgetTracker_shadow {trackerId : ℕ} (hid : trackerId < maxTrackers) (t : Tdma) :
    (t.tdmaShadowForgetTracker trackerId).shadow = { t.shadow with
      lastSeenMs := update t.shadow.lastSeenMs trackerId 0
      everPingMask := clearBit t.shadow.everPingMask trackerId
      everDataMask := clearBit t.shadow.everDataMask trackerId
      liveEvidenceMask := clearBit t.shadow.liveEvidenceMask trackerId
      desiredMask := clearBit t.shadow.desiredMask trackerId
      pendingJoinMask := clearBit t.shadow.pendingJoinMask trackerId
      pendingLeaveMask := clearBit t.shadow.pendingLeaveMask trackerId
      membershipDeadlineArmed :=
        if clearBit t.shadow.desiredMask trackerId = t.layout.activeMask ∧
            clearBit t.shadow.pendingJoinMask trackerId = 0#32 then false
        else t.shadow.membershipDeadlineArmed } := by
  rw [tdmaShadowForgetTracker, if_neg (not_le.mpr hid)]

/-! ## Merging -/

/-- `stored_mask` of a merge: `BIT(tracker_count) - 1`, where `tracker_count` is at most
`MAX_TRACKERS`. -/
def mergeStoredMask (t : Tdma) : TrackerMask :=
  lowBits 32 (min t.roster.storedTrackers maxTrackers)

/-- Age of a tracker's evidence. A reading taken before the evidence arrived counts as fresh, no
evidence as infinitely old. -/
def shadowAgeMs (hasEvidence : Bool) (nowMs lastSeenMs : BitVec 32) : ℕ :=
  if hasEvidence then (max (signedDistance nowMs lastSeenMs) 0).toNat else 2 ^ 32 - 1

/-- The variables the loop of a merge works on. -/
structure MergeScan where
  desiredMask : TrackerMask
  pendingLeaveMask : TrackerMask
  evictedMask : TrackerMask
  liveEvidenceMask : TrackerMask
  lastSeenMs : ℕ → BitVec 32

/-- One iteration of the loop in `tdma_shadow_merge_locked`. -/
def mergeTracker (nowMs : BitVec 32) (evidenceMask activeMask : TrackerMask) (scan : MergeScan)
    (i : ℕ) : MergeScan :=
  let hasEvidence := hasBit evidenceMask i
  let ageMs := shadowAgeMs hasEvidence nowMs (scan.lastSeenMs i)
  if hasBit scan.desiredMask i then
    -- a member that never got a slot leaves after the fresh window, a published one after the grace
    if !hasBit activeMask i && decide (tdmaShadowFreshMs ≤ ageMs) then
      { scan with
        desiredMask := clearBit scan.desiredMask i
        liveEvidenceMask := clearBit scan.liveEvidenceMask i
        lastSeenMs := update scan.lastSeenMs i 0 }
    else if hasEvidence && decide (tdmaShadowLeaveGraceMs ≤ ageMs) then
      { scan with
        evictedMask := setBit scan.evictedMask i
        desiredMask := clearBit scan.desiredMask i
        liveEvidenceMask := clearBit scan.liveEvidenceMask i
        lastSeenMs := update scan.lastSeenMs i 0 }
    else if hasEvidence && decide (tdmaShadowFreshMs ≤ ageMs) then
      { scan with pendingLeaveMask := setBit scan.pendingLeaveMask i }
    else scan
  else if hasEvidence && decide (ageMs < tdmaShadowFreshMs) then
    { scan with desiredMask := setBit scan.desiredMask i }
  else if hasEvidence then
    { scan with
      liveEvidenceMask := clearBit scan.liveEvidenceMask i
      lastSeenMs := update scan.lastSeenMs i 0 }
  else scan

/-- The loop of `tdma_shadow_merge_locked`, with the masks it starts from. -/
def mergeScan (nowMs : BitVec 32) (t : Tdma) : MergeScan :=
  forBelow (min t.roster.storedTrackers maxTrackers)
    (mergeTracker nowMs (t.shadow.liveEvidenceMask &&& t.mergeStoredMask) t.layout.activeMask)
    { desiredMask := t.shadow.desiredMask &&& t.mergeStoredMask
      pendingLeaveMask := 0
      evictedMask := 0
      liveEvidenceMask := t.shadow.liveEvidenceMask
      lastSeenMs := t.shadow.lastSeenMs }

/-- `tdma_shadow_merge_locked`: fold the evidence into the desired membership and restart or stop
the deadline. The evicted mask it returns is only logged. -/
def tdmaShadowMergeLocked (nowMs : BitVec 32) (t : Tdma) : Tdma × TrackerMask :=
  let scan := t.mergeScan nowMs
  let unpublished := scan.desiredMask != t.layout.activeMask
  ({ t with shadow := { t.shadow with
        lastSeenMs := scan.lastSeenMs
        liveEvidenceMask := scan.liveEvidenceMask
        desiredMask := scan.desiredMask
        pendingJoinMask := 0
        pendingLeaveMask := scan.pendingLeaveMask
        desiredChangedAtMs :=
          if scan.desiredMask ≠ t.shadow.desiredMask then nowMs else t.shadow.desiredChangedAtMs
        membershipDeadlineMs :=
          -- a departure has no cohort to wait for
          if unpublished && !t.shadow.membershipDeadlineArmed then nowMs
          else t.shadow.membershipDeadlineMs
        membershipDeadlineArmed := unpublished } }, scan.evictedMask)

/-- The scheduler after a merge. -/
def merged (nowMs : BitVec 32) (t : Tdma) : Tdma := (t.tdmaShadowMergeLocked nowMs).1

@[simp] theorem merged_uptime (nowMs : BitVec 32) (t : Tdma) :
    (t.merged nowMs).uptime = t.uptime := rfl
@[simp] theorem merged_roster (nowMs : BitVec 32) (t : Tdma) :
    (t.merged nowMs).roster = t.roster := rfl
@[simp] theorem merged_layout (nowMs : BitVec 32) (t : Tdma) :
    (t.merged nowMs).layout = t.layout := rfl
@[simp] theorem merged_loss (nowMs : BitVec 32) (t : Tdma) :
    (t.merged nowMs).loss = t.loss := rfl
@[simp] theorem merged_storeTask (nowMs : BitVec 32) (t : Tdma) :
    (t.merged nowMs).storeTask = t.storeTask := rfl
@[simp] theorem merged_pendingJoinMask (nowMs : BitVec 32) (t : Tdma) :
    (t.merged nowMs).shadow.pendingJoinMask = 0 := rfl

/-- A merge leaves the deadline armed exactly when something is left to publish. -/
theorem merged_armed (nowMs : BitVec 32) (t : Tdma) :
    (t.merged nowMs).shadow.membershipDeadlineArmed =
      ((t.merged nowMs).shadow.desiredMask != t.layout.activeMask) := rfl

/-! ## What a merge decides for one tracker -/

/-- The part of a merge's variables that concerns one tracker. -/
structure TrackerShadow where
  desired : Bool
  pendingLeave : Bool
  live : Bool
  lastSeen : BitVec 32

/-- The decision of a merge about one tracker, from whether it has evidence and is active. -/
def mergeVerdict (nowMs : BitVec 32) (evidence active : Bool) (v : TrackerShadow) :
    TrackerShadow :=
  let ageMs := shadowAgeMs evidence nowMs v.lastSeen
  if v.desired then
    if !active && decide (tdmaShadowFreshMs ≤ ageMs) then
      { v with desired := false, live := false, lastSeen := 0 }
    else if evidence && decide (tdmaShadowLeaveGraceMs ≤ ageMs) then
      { v with desired := false, live := false, lastSeen := 0 }
    else if evidence && decide (tdmaShadowFreshMs ≤ ageMs) then { v with pendingLeave := true }
    else v
  else if evidence && decide (ageMs < tdmaShadowFreshMs) then { v with desired := true }
  else if evidence then { v with live := false, lastSeen := 0 }
  else v

/-- The variables of the loop at tracker `j`. -/
def MergeScan.at (scan : MergeScan) (j : ℕ) : TrackerShadow where
  desired := hasBit scan.desiredMask j
  pendingLeave := hasBit scan.pendingLeaveMask j
  live := hasBit scan.liveEvidenceMask j
  lastSeen := scan.lastSeenMs j

theorem mergeTracker_at_self (nowMs : BitVec 32) (evidenceMask activeMask : TrackerMask)
    (scan : MergeScan) {i : ℕ} (hi : i < 32) :
    (mergeTracker nowMs evidenceMask activeMask scan i).at i =
      mergeVerdict nowMs (hasBit evidenceMask i) (hasBit activeMask i) (scan.at i) := by
  dsimp only [mergeTracker, mergeVerdict, MergeScan.at]
  split_ifs <;> simp [*]

theorem mergeTracker_at_other (nowMs : BitVec 32) (evidenceMask activeMask : TrackerMask)
    (scan : MergeScan) {i j : ℕ} (hj : j ≠ i) :
    (mergeTracker nowMs evidenceMask activeMask scan i).at j = scan.at j := by
  unfold mergeTracker
  simp only [MergeScan.at]
  split_ifs <;> simp [hj, hj.symm]

/-- The masks a merge starts from, at tracker `j`. -/
def shadowAt (t : Tdma) (j : ℕ) : TrackerShadow where
  desired := hasBit t.shadow.desiredMask j
  pendingLeave := false
  live := hasBit t.shadow.liveEvidenceMask j
  lastSeen := t.shadow.lastSeenMs j

theorem hasBit_mergeStoredMask (t : Tdma) (j : ℕ) :
    hasBit t.mergeStoredMask j = decide (j < t.roster.storedTrackers) := by
  have hle := t.roster.stored_le
  rw [mergeStoredMask, min_eq_left hle, hasBit_lowBits (hle.trans_lt (by decide))]

/-- **A merge, tracker by tracker.** For a stored tracker the loop leaves the verdict on what it
found. -/
theorem mergeScan_at_stored (nowMs : BitVec 32) (t : Tdma) {j : ℕ}
    (hj : j < t.roster.storedTrackers) :
    (t.mergeScan nowMs).at j =
      mergeVerdict nowMs (hasBit t.shadow.liveEvidenceMask j) (hasBit t.layout.activeMask j)
        (t.shadowAt j) := by
  have hle := t.roster.stored_le
  rw [mergeScan, forBelow_pointwise MergeScan.at (fun i => mergeVerdict nowMs
    (hasBit (t.shadow.liveEvidenceMask &&& t.mergeStoredMask) i) (hasBit t.layout.activeMask i))
    (fun scan i hi => mergeTracker_at_self _ _ _ scan (by unfold maxTrackers at *; omega))
    (fun scan i k _ hk => mergeTracker_at_other _ _ _ scan hk),
    if_pos (lt_min hj (hj.trans_le hle))]
  simp [MergeScan.at, shadowAt, hasBit_mergeStoredMask, hj]

/-- A merge drops every id that is not stored from the desired membership and leaves the rest of
what is recorded about it. -/
theorem mergeScan_at_unstored (nowMs : BitVec 32) (t : Tdma) {j : ℕ}
    (hj : t.roster.storedTrackers ≤ j) :
    (t.mergeScan nowMs).at j = { t.shadowAt j with desired := false } := by
  have hle := t.roster.stored_le
  rw [mergeScan, forBelow_pointwise MergeScan.at (fun i => mergeVerdict nowMs
    (hasBit (t.shadow.liveEvidenceMask &&& t.mergeStoredMask) i) (hasBit t.layout.activeMask i))
    (fun scan i hi => mergeTracker_at_self _ _ _ scan (by unfold maxTrackers at *; omega))
    (fun scan i k _ hk => mergeTracker_at_other _ _ _ scan hk),
    if_neg (by rw [min_eq_left hle]; exact not_lt.mpr hj)]
  simp [MergeScan.at, shadowAt, hasBit_mergeStoredMask, hj]

/-- The verdict of a merge in state `t` about tracker `j`. -/
def verdictAt (nowMs : BitVec 32) (t : Tdma) (j : ℕ) : TrackerShadow :=
  mergeVerdict nowMs (hasBit t.shadow.liveEvidenceMask j) (hasBit t.layout.activeMask j)
    (t.shadowAt j)

/-- A merge desires exactly the stored trackers its verdict desires. -/
theorem hasBit_merged_desiredMask (nowMs : BitVec 32) (t : Tdma) (j : ℕ) :
    hasBit (t.merged nowMs).shadow.desiredMask j =
      (decide (j < t.roster.storedTrackers) && (t.verdictAt nowMs j).desired) := by
  change ((t.mergeScan nowMs).at j).desired = _
  by_cases hj : j < t.roster.storedTrackers
  · rw [mergeScan_at_stored nowMs t hj, decide_eq_true hj, Bool.true_and, verdictAt]
  · rw [mergeScan_at_unstored nowMs t (not_lt.mp hj), decide_eq_false hj, Bool.false_and]

theorem hasBit_merged_liveEvidenceMask (nowMs : BitVec 32) (t : Tdma) (j : ℕ) :
    hasBit (t.merged nowMs).shadow.liveEvidenceMask j =
      if j < t.roster.storedTrackers then (t.verdictAt nowMs j).live
      else hasBit t.shadow.liveEvidenceMask j := by
  change ((t.mergeScan nowMs).at j).live = _
  split
  case isTrue hj => rw [mergeScan_at_stored nowMs t hj, verdictAt]
  case isFalse hj => rw [mergeScan_at_unstored nowMs t (not_lt.mp hj), shadowAt]

theorem merged_lastSeenMs (nowMs : BitVec 32) (t : Tdma) (j : ℕ) :
    (t.merged nowMs).shadow.lastSeenMs j =
      if j < t.roster.storedTrackers then (t.verdictAt nowMs j).lastSeen
      else t.shadow.lastSeenMs j := by
  change ((t.mergeScan nowMs).at j).lastSeen = _
  split
  case isTrue hj => rw [mergeScan_at_stored nowMs t hj, verdictAt]
  case isFalse hj => rw [mergeScan_at_unstored nowMs t (not_lt.mp hj), shadowAt]

/-! ## What a verdict can be -/

/-- The outcomes of a verdict: the tracker leaves, is desired with its evidence kept, or was and
stays without evidence. -/
inductive Verdict (nowMs : BitVec 32) (evidence active : Bool) (v : TrackerShadow) :
    TrackerShadow → Prop
  | unpublishedLeaves : v.desired = true → active = false →
      tdmaShadowFreshMs ≤ shadowAgeMs evidence nowMs v.lastSeen →
      Verdict nowMs evidence active v { v with desired := false, live := false, lastSeen := 0 }
  | graceLeaves : v.desired = true → evidence = true →
      tdmaShadowLeaveGraceMs ≤ shadowAgeMs evidence nowMs v.lastSeen →
      Verdict nowMs evidence active v { v with desired := false, live := false, lastSeen := 0 }
  | stays (pendingLeave : Bool) : v.desired = true →
      (active = false → shadowAgeMs evidence nowMs v.lastSeen < tdmaShadowFreshMs) →
      (evidence = true → shadowAgeMs evidence nowMs v.lastSeen < tdmaShadowLeaveGraceMs) →
      Verdict nowMs evidence active v { v with pendingLeave := pendingLeave }
  | joins : v.desired = false → evidence = true →
      shadowAgeMs evidence nowMs v.lastSeen < tdmaShadowFreshMs →
      Verdict nowMs evidence active v { v with desired := true }
  | stale : v.desired = false → evidence = true →
      tdmaShadowFreshMs ≤ shadowAgeMs evidence nowMs v.lastSeen →
      Verdict nowMs evidence active v { v with live := false, lastSeen := 0 }
  | absent : v.desired = false → evidence = false → Verdict nowMs evidence active v v

/-- **Inversion of a verdict.** -/
theorem mergeVerdict_verdict (nowMs : BitVec 32) (evidence active : Bool) (v : TrackerShadow) :
    Verdict nowMs evidence active v (mergeVerdict nowMs evidence active v) := by
  unfold mergeVerdict
  simp only [Bool.and_eq_true, Bool.not_eq_true', decide_eq_true_eq]
  split
  case isTrue hdesired =>
    split
    case isTrue hleaves => exact .unpublishedLeaves hdesired hleaves.1 hleaves.2
    case isFalse hpublished =>
      split
      case isTrue hleaves => exact .graceLeaves hdesired hleaves.1 hleaves.2
      case isFalse hgrace =>
        have hfresh : active = false → shadowAgeMs evidence nowMs v.lastSeen < tdmaShadowFreshMs :=
          fun hactive => not_le.mp fun hage => hpublished ⟨hactive, hage⟩
        have hkeep : evidence = true →
            shadowAgeMs evidence nowMs v.lastSeen < tdmaShadowLeaveGraceMs :=
          fun hevidence => not_le.mp fun hage => hgrace ⟨hevidence, hage⟩
        split
        · exact .stays true hdesired hfresh hkeep
        · exact .stays v.pendingLeave hdesired hfresh hkeep
  case isFalse hdesired =>
    have hundesired : v.desired = false := by simpa using hdesired
    split
    case isTrue hjoins => exact .joins hundesired hjoins.1 hjoins.2
    case isFalse hjoins =>
      split
      case isTrue hevidence =>
        exact .stale hundesired hevidence (not_lt.mp fun hage => hjoins ⟨hevidence, hage⟩)
      case isFalse hevidence => exact .absent hundesired (by simpa using hevidence)

section Verdict

variable {nowMs : BitVec 32} {evidence active : Bool} {v w : TrackerShadow}

/-- Evidence that survives a merge belongs to a desired tracker. -/
theorem Verdict.live_imp_desired (h : Verdict nowMs evidence active v w) (hevidence : evidence = v.live)
    (hlive : w.live = true) : w.desired = true := by
  cases h with
  | unpublishedLeaves | graceLeaves | stale => simp at hlive
  | stays _ hdesired => exact hdesired
  | joins => rfl
  | absent _ hnone => rw [hevidence, hlive] at hnone; exact absurd hnone (by decide)

/-- A merge that finds evidence for a desired tracker leaves evidence for a desired tracker. -/
theorem Verdict.desired_imp_live (h : Verdict nowMs evidence active v w) (hevidence : evidence = v.live)
    (hbefore : v.desired = true → v.live = true) (hdesired : w.desired = true) : w.live = true := by
  cases h with
  | unpublishedLeaves | graceLeaves => simp at hdesired
  | stale hnot | absent hnot => rw [hdesired] at hnot; exact absurd hnot (by decide)
  | stays _ hwas => exact hbefore hwas
  | joins _ hfound => exact hevidence.symm.trans hfound

end Verdict

/-- The verdict of a merge on tracker `j`. -/
theorem verdictAt_verdict (nowMs : BitVec 32) (t : Tdma) (j : ℕ) :
    Verdict nowMs (hasBit t.shadow.liveEvidenceMask j) (hasBit t.layout.activeMask j)
      (t.shadowAt j) (t.verdictAt nowMs j) :=
  mergeVerdict_verdict _ _ _ _

end Tdma

end SlimeReceiver
