import SlimeReceiver.Tdma.Shadow

/-! # Slot layout

`tdma_slot_ticks_for` and `tdma_recalculate`. The loop of `tdma_recalculate` runs one critical
section per pass and leaves the lock between two passes, so the model is the pass.

* **`tdmaPackConfig`** — a slot word, with the fields its readers take out of it.
* **`tdmaSlotTicksFor`** — the slot width of a layout.
* **`assignSlots`** — the loop that writes the sixteen words, and `assignSlots_apply`, what it
  writes.
* **`recalculatePass`** — one pass, and `recalculatePass_cases`, everything it can do. -/

namespace SlimeReceiver

open Function (update)

/-! ## Slot words -/

/-- `tdma_pack_config`: slot, total, slot ticks and epoch, from the high byte down. -/
def tdmaPackConfig (slot total slotTicks epoch : BitVec 8) : BitVec 32 :=
  slot ++ total ++ slotTicks ++ epoch

/-- `(cfg >> 24) & 0xFF`. -/
def configSlot (cfg : BitVec 32) : BitVec 8 := cfg.extractLsb' 24 8

/-- `(cfg >> 16) & 0xFF`. -/
def configTotal (cfg : BitVec 32) : BitVec 8 := cfg.extractLsb' 16 8

/-- `(cfg >> 8) & 0xFF`. -/
def configTicks (cfg : BitVec 32) : BitVec 8 := cfg.extractLsb' 8 8

/-- `cfg & 0xFF`. -/
def configEpochOf (cfg : BitVec 32) : BitVec 8 := cfg.extractLsb' 0 8

section PackedFields

variable (slot total slotTicks epoch : BitVec 8)

@[simp] theorem configSlot_pack : configSlot (tdmaPackConfig slot total slotTicks epoch) = slot := by
  apply BitVec.eq_of_getLsbD_eq
  intro i hi
  simp only [configSlot, tdmaPackConfig, BitVec.getLsbD_extractLsb', BitVec.getLsbD_append, hi]
  rw [if_neg (by omega), if_neg (by omega), if_neg (by omega), decide_true, Bool.true_and,
    show 24 + i - 8 - 8 - 8 = i by omega]

@[simp] theorem configTotal_pack :
    configTotal (tdmaPackConfig slot total slotTicks epoch) = total := by
  apply BitVec.eq_of_getLsbD_eq
  intro i hi
  simp only [configTotal, tdmaPackConfig, BitVec.getLsbD_extractLsb', BitVec.getLsbD_append, hi]
  rw [if_neg (by omega), if_neg (by omega), if_pos (by omega), decide_true, Bool.true_and,
    show 16 + i - 8 - 8 = i by omega]

@[simp] theorem configTicks_pack :
    configTicks (tdmaPackConfig slot total slotTicks epoch) = slotTicks := by
  apply BitVec.eq_of_getLsbD_eq
  intro i hi
  simp only [configTicks, tdmaPackConfig, BitVec.getLsbD_extractLsb', BitVec.getLsbD_append, hi]
  simp [hi]

@[simp] theorem configEpochOf_pack :
    configEpochOf (tdmaPackConfig slot total slotTicks epoch) = epoch := by
  apply BitVec.eq_of_getLsbD_eq
  intro i hi
  simp only [configEpochOf, tdmaPackConfig, BitVec.getLsbD_extractLsb', BitVec.getLsbD_append, hi]
  simp [hi]

end PackedFields

/-- A word assigns a slot: the test every reader of a slot word makes. -/
def ValidConfig (cfg : BitVec 32) : Prop :=
  configSlot cfg ≠ 0xFF ∧ configTotal cfg ≠ 0 ∧ configTicks cfg ≠ 0

instance (cfg : BitVec 32) : Decidable (ValidConfig cfg) := inferInstanceAs (Decidable (_ ∧ _))

/-- The word of a slot that was reset assigns nothing. -/
theorem not_validConfig_zero : ¬ValidConfig 0#32 := by decide

/-! ## Slot width -/

/-- `tdma_slot_ticks_for`: the widest even slot that keeps the opportunity rate of the current
ladder level. Forced test-all takes the narrowest slot. -/
def tdmaSlotTicksFor (testAllEnabled : Bool) (capLevel activeCount : ℕ) : ℕ :=
  if activeCount = 0 then tdmaBaseSlotTicks
  else if testAllEnabled then tdmaBaseSlotTicks
  else
    let cap := tdmaCapLadder.getD capLevel 0
    let maxSticks := 32768 / (activeCount * cap)
    let widthLimit := if capLevel = 0 then tdmaSlotTicksMaxLevel0 else 255
    let sticks := min maxSticks widthLimit / 2 * 2
    max sticks tdmaBaseSlotTicks

/-- The width fits the byte that carries it. -/
theorem tdmaSlotTicksFor_le (testAllEnabled : Bool) (capLevel activeCount : ℕ) :
    tdmaSlotTicksFor testAllEnabled capLevel activeCount ≤ 255 := by
  unfold tdmaSlotTicksFor
  have hbase : tdmaBaseSlotTicks ≤ 255 := by decide
  split
  · exact hbase
  · split
    · exact hbase
    · refine max_le ?_ hbase
      refine (Nat.div_mul_le_self _ 2).trans ((min_le_right _ _).trans ?_)
      split <;> decide

/-- A slot is never narrower than the base width. -/
theorem base_le_tdmaSlotTicksFor (testAllEnabled : Bool) (capLevel activeCount : ℕ) :
    tdmaBaseSlotTicks ≤ tdmaSlotTicksFor testAllEnabled capLevel activeCount := by
  unfold tdmaSlotTicksFor
  split
  · exact le_rfl
  · split
    · exact le_rfl
    · exact le_max_right _ _

/-! ## Assigning slots -/

/-- One iteration of the assignment loop: the next free slot for a member, `0xFF` for the others,
and the common total, width and epoch for all. -/
def assignSlot (newMask : TrackerMask) (activeCount slotTicks : ℕ) (epoch : BitVec 8)
    (st : ℕ × (ℕ → BitVec 32)) (i : ℕ) : ℕ × (ℕ → BitVec 32) :=
  let assigned := if hasBit newMask i then st.1 else 0xFF
  (if hasBit newMask i then st.1 + 1 else st.1,
    update st.2 i (tdmaPackConfig (BitVec.ofNat 8 assigned) (BitVec.ofNat 8 activeCount)
      (BitVec.ofNat 8 slotTicks) epoch))

/-- The sixteen words of a publication, written over `words`. -/
def assignSlots (newMask : TrackerMask) (activeCount slotTicks : ℕ) (epoch : BitVec 8)
    (words : ℕ → BitVec 32) : ℕ → BitVec 32 :=
  (forBelow maxTrackers (assignSlot newMask activeCount slotTicks epoch) (0, words)).2

/-- The word a publication gives tracker `i`: a member's slot is the number of members below. -/
def assignedConfig (newMask : TrackerMask) (activeCount slotTicks : ℕ) (epoch : BitVec 8) (i : ℕ) :
    BitVec 32 :=
  tdmaPackConfig (if hasBit newMask i then BitVec.ofNat 8 (rankBelow newMask i) else 0xFF)
    (BitVec.ofNat 8 activeCount) (BitVec.ofNat 8 slotTicks) epoch

/-- After `n` iterations the next free slot is the number of members below `n`, and the words
below `n` are written. -/
theorem assignLoop (newMask : TrackerMask) (activeCount slotTicks : ℕ) (epoch : BitVec 8)
    (words : ℕ → BitVec 32) (n : ℕ) :
    (forBelow n (assignSlot newMask activeCount slotTicks epoch) (0, words)).1 =
        rankBelow newMask n ∧
      ∀ k, (forBelow n (assignSlot newMask activeCount slotTicks epoch) (0, words)).2 k =
        if k < n then assignedConfig newMask activeCount slotTicks epoch k else words k := by
  refine forBelow_invariant (P := fun n (st : ℕ × (ℕ → BitVec 32)) =>
    st.1 = rankBelow newMask n ∧ ∀ k, st.2 k =
    if k < n then assignedConfig newMask activeCount slotTicks epoch k else words k)
    ⟨(rankBelow_zero _).symm, fun k => by simp⟩ ?_
  rintro i ⟨slot, words'⟩ - ⟨rfl, hwords⟩
  refine ⟨?_, fun k => ?_⟩
  · rw [rankBelow_succ]
    by_cases hi : hasBit newMask i <;> simp [assignSlot, hi]
  · rcases eq_or_ne k i with rfl | hki
    · by_cases hk : hasBit newMask k <;> simp [assignSlot, assignedConfig, hk]
    · have hlt : k < i + 1 ↔ k < i := by omega
      have hk := hwords k
      simp only [assignSlot, Function.update_of_ne hki, hlt]
      exact hk

/-- **Assignment.** The loop writes every tracker's word and nothing else; members get the slots
`0, 1, …` in the order of their ids. -/
theorem assignSlots_apply (newMask : TrackerMask) (activeCount slotTicks : ℕ) (epoch : BitVec 8)
    (words : ℕ → BitVec 32) (j : ℕ) :
    assignSlots newMask activeCount slotTicks epoch words j =
      if j < maxTrackers then assignedConfig newMask activeCount slotTicks epoch j
      else words j :=
  (assignLoop newMask activeCount slotTicks epoch words maxTrackers).2 j

namespace Tdma

/-! ## One pass of `tdma_recalculate` -/

/-- The modes of other subsystems a pass reads under its lock. -/
structure RecalculateModes where
  /-- `test_all_enabled`. -/
  testAllEnabled : Bool
  /-- `data_collect_is_active() || data_collect_batch_is_active()`. -/
  collecting : Bool
  deriving DecidableEq, Repr

/-- A pass first merges when evidence is waiting or the lock was dropped since the last pass. -/
def needsMerge (forced diagnosticsReset : Bool) (t : Tdma) : Bool :=
  !forced && (diagnosticsReset || t.shadow.pendingJoinMask != 0#32 ||
    t.shadow.desiredMask &&& ~~~t.layout.activeMask != 0#32)

/-- The state a pass decides on. -/
def resampled (forced diagnosticsReset : Bool) (t : Tdma) : Tdma :=
  if t.needsMerge forced diagnosticsReset then t.merged (stamp t.uptime) else t

/-- `stored_mask` of a pass. -/
def recalculateStoredMask (t : Tdma) : TrackerMask :=
  if t.roster.storedTrackers ≥ maxTrackers then BitVec.allOnes 32
  else lowBits 32 t.roster.storedTrackers

/-- `new_mask`: the desired members that are stored. -/
def newMask (t : Tdma) : TrackerMask := t.shadow.desiredMask &&& t.recalculateStoredMask

/-- `active_count`: the loop that counts the members of `new_mask`. -/
def activeCount (t : Tdma) : ℕ :=
  forBelow (min t.roster.storedTrackers maxTrackers)
    (fun n i => if hasBit t.newMask i then n + 1 else n) 0

/-- `mask_changed`. -/
def maskChanged (t : Tdma) : Bool := t.newMask != t.layout.activeMask

/-- A new membership restarts the ladder; a running collection withdraws an unpublished step. -/
def adoptLevel (collecting : Bool) (t : Tdma) : Tdma :=
  if t.maskChanged then { t with loss := { t.loss with capLevel := 0 }.resetWindows }
  else if collecting then { t with loss := { t.loss with capLevel := t.loss.publishedCapLevel } }
  else t

/-- `tdma_published_cap_level = tdma_cap_level`. -/
def acknowledgeLevel (t : Tdma) : Tdma :=
  { t with loss := { t.loss with publishedCapLevel := t.loss.capLevel } }

/-- `ladder_step`. -/
def ladderStep (t : Tdma) : Bool := t.loss.capLevel != t.loss.publishedCapLevel

/-- `min_reconfig_ms`. -/
def minReconfigMs (testAllLayout : Bool) (t : Tdma) : ℕ :=
  if t.maskChanged || testAllLayout || !t.ladderStep then tdmaReconfigMinMs
  else tdmaLossReconfigMinMs

/-- The publication is not due yet: the cohort of a membership change is still open, or the
previous publication is too recent. -/
def mustWait (testAllLayout : Bool) (t : Tdma) : Bool :=
  t.maskChanged && t.shadow.membershipDeadlineArmed &&
      decide (signedDistance (stamp t.uptime) t.shadow.membershipDeadlineMs < 0) ||
    t.layout.lastReconfigValid &&
      decide ((t.uptime : ℤ) - t.layout.lastReconfigTime < t.minReconfigMs testAllLayout)

/-- `slot_ticks` of a pass. -/
def slotTicks (modes : RecalculateModes) (t : Tdma) : ℕ :=
  tdmaSlotTicksFor modes.testAllEnabled t.loss.capLevel t.activeCount

/-- The publication itself, from the state the pass decided on. -/
def publish (modes : RecalculateModes) (t : Tdma) : Tdma :=
  let epoch := if t.activeCount = 0 then t.layout.configEpoch else t.layout.configEpoch + 1
  let published : Tdma := { t with
    layout := { t.layout with
      tdmaConfigPacked :=
        assignSlots t.newMask t.activeCount (t.slotTicks modes) epoch t.layout.tdmaConfigPacked
      configEpoch := epoch
      dynamicActiveCount := t.activeCount
      dynamicSlotTicks := t.slotTicks modes
      activeMask := t.newMask
      lastReconfigTime := t.uptime
      lastReconfigValid := true }
    shadow := { t.shadow with
      membershipDeadlineArmed :=
        if t.shadow.pendingJoinMask = 0#32 then false else t.shadow.membershipDeadlineArmed }
    loss := { t.loss with rxDiscontinuityPending := true } }
  if t.maskChanged || !modes.testAllEnabled then published.acknowledgeLevel else published

/-- How a pass ends. -/
inductive PassOutcome
  /-- `tdma_recalculate` returns without publishing. -/
  | returned
  /-- The lock is dropped for the diagnostics reset and another pass follows. -/
  | again
  | published
  deriving DecidableEq, Repr

/-- The state a pass makes its decisions in: resampled, with the level it will publish. -/
def decided (forced diagnosticsReset : Bool) (modes : RecalculateModes) (t : Tdma) : Tdma :=
  (t.resampled forced diagnosticsReset).adoptLevel modes.collecting

/-- An initially empty layout is not a publication. -/
def returnEmpty (t : Tdma) : Tdma :=
  { t with layout := { t.layout with dynamicSlotTicks := tdmaBaseSlotTicks } }.acknowledgeLevel

/-- A layout of the width in force acknowledges the level unless test-all forced that width. -/
def returnUnchanged (modes : RecalculateModes) (t : Tdma) : Tdma :=
  if modes.testAllEnabled then t else t.acknowledgeLevel

/-- One pass of the loop in `tdma_recalculate`. -/
def recalculatePass (forced diagnosticsReset : Bool) (modes : RecalculateModes) (t : Tdma) :
    Tdma × PassOutcome :=
  let t := t.decided forced diagnosticsReset modes
  if !t.maskChanged && t.activeCount == 0 then (t.returnEmpty, .returned)
  else if !t.maskChanged && t.slotTicks modes == t.layout.dynamicSlotTicks then
    (t.returnUnchanged modes, .returned)
  else if !forced && t.mustWait modes.testAllEnabled then (t, .returned)
  else if t.activeCount != 0 && !diagnosticsReset then (t, .again)
  else (t.publish modes, .published)

/-- Everything a pass can make of the state `t` it decided on. -/
inductive PassResult (forced diagnosticsReset : Bool) (modes : RecalculateModes) (t : Tdma) :
    Tdma × PassOutcome → Prop
  | empty : t.maskChanged = false → t.activeCount = 0 →
      PassResult forced diagnosticsReset modes t (t.returnEmpty, .returned)
  | unchanged : t.maskChanged = false → t.activeCount ≠ 0 →
      t.slotTicks modes = t.layout.dynamicSlotTicks →
      PassResult forced diagnosticsReset modes t (t.returnUnchanged modes, .returned)
  | wait : t.maskChanged = true ∨ t.activeCount ≠ 0 ∧ t.slotTicks modes ≠ t.layout.dynamicSlotTicks →
      forced = false → t.mustWait modes.testAllEnabled = true →
      PassResult forced diagnosticsReset modes t (t, .returned)
  | again : t.maskChanged = true ∨ t.activeCount ≠ 0 ∧ t.slotTicks modes ≠ t.layout.dynamicSlotTicks →
      forced = true ∨ t.mustWait modes.testAllEnabled = false → t.activeCount ≠ 0 →
      diagnosticsReset = false → PassResult forced diagnosticsReset modes t (t, .again)
  | publish : t.maskChanged = true ∨ t.activeCount ≠ 0 ∧ t.slotTicks modes ≠ t.layout.dynamicSlotTicks →
      forced = true ∨ t.mustWait modes.testAllEnabled = false →
      t.activeCount = 0 ∨ diagnosticsReset = true →
      PassResult forced diagnosticsReset modes t (t.publish modes, .published)

/-- **Inversion of a pass.** -/
theorem recalculatePass_result (forced diagnosticsReset : Bool) (modes : RecalculateModes)
    (t : Tdma) :
    PassResult forced diagnosticsReset modes (t.decided forced diagnosticsReset modes)
      (t.recalculatePass forced diagnosticsReset modes) := by
  unfold recalculatePass
  generalize t.decided forced diagnosticsReset modes = d
  simp only [Bool.and_eq_true, Bool.not_eq_true', beq_iff_eq, bne_iff_ne]
  split
  case isTrue hempty => exact .empty hempty.1 hempty.2
  case isFalse hempty =>
    split
    case isTrue hsame => exact .unchanged hsame.1 (fun h => hempty ⟨hsame.1, h⟩) hsame.2
    case isFalse hsame =>
      have hdue : d.maskChanged = true ∨
          d.activeCount ≠ 0 ∧ d.slotTicks modes ≠ d.layout.dynamicSlotTicks := by
        cases hmask : d.maskChanged with
        | true => exact .inl rfl
        | false => exact .inr ⟨fun h => hempty ⟨hmask, h⟩, fun h => hsame ⟨hmask, h⟩⟩
      split
      case isTrue hwait => exact .wait hdue hwait.1 hwait.2
      case isFalse hwait =>
        have hready : forced = true ∨ d.mustWait modes.testAllEnabled = false := by
          cases forced with
          | true => exact .inl rfl
          | false => exact .inr (by simpa using hwait)
        split
        case isTrue hagain => exact .again hdue hready hagain.1 hagain.2
        case isFalse hagain =>
          refine .publish hdue hready ?_
          by_contra hnot
          push Not at hnot
          exact hagain ⟨hnot.1, by simpa using hnot.2⟩

/-! ## What the parts of a pass leave alone -/

section Frames

variable (forced diagnosticsReset collecting : Bool) (modes : RecalculateModes) (t : Tdma)

@[simp] theorem resampled_uptime : (t.resampled forced diagnosticsReset).uptime = t.uptime := by
  unfold resampled
  split <;> rfl

@[simp] theorem resampled_roster : (t.resampled forced diagnosticsReset).roster = t.roster := by
  unfold resampled
  split <;> rfl

@[simp] theorem resampled_layout : (t.resampled forced diagnosticsReset).layout = t.layout := by
  unfold resampled
  split <;> rfl

@[simp] theorem resampled_loss : (t.resampled forced diagnosticsReset).loss = t.loss := by
  unfold resampled
  split <;> rfl

/-- A forced pass takes the desired membership as it is. -/
@[simp] theorem resampled_forced : t.resampled true diagnosticsReset = t := rfl

/-- Adopting a level touches nothing but the loss controller. -/
theorem adoptLevel_eq : t.adoptLevel collecting = { t with loss := (t.adoptLevel collecting).loss } := by
  unfold adoptLevel
  split
  · rfl
  · split <;> rfl

@[simp] theorem adoptLevel_uptime : (t.adoptLevel collecting).uptime = t.uptime := by
  rw [adoptLevel_eq]

@[simp] theorem adoptLevel_roster : (t.adoptLevel collecting).roster = t.roster := by
  rw [adoptLevel_eq]

@[simp] theorem adoptLevel_shadow : (t.adoptLevel collecting).shadow = t.shadow := by
  rw [adoptLevel_eq]

@[simp] theorem adoptLevel_layout : (t.adoptLevel collecting).layout = t.layout := by
  rw [adoptLevel_eq]

@[simp] theorem decided_uptime :
    (t.decided forced diagnosticsReset modes).uptime = t.uptime := by simp [decided]

@[simp] theorem decided_roster :
    (t.decided forced diagnosticsReset modes).roster = t.roster := by simp [decided]

@[simp] theorem decided_layout :
    (t.decided forced diagnosticsReset modes).layout = t.layout := by simp [decided]

@[simp] theorem decided_shadow :
    (t.decided forced diagnosticsReset modes).shadow =
      (t.resampled forced diagnosticsReset).shadow := by simp [decided]

@[simp] theorem returnUnchanged_uptime : (t.returnUnchanged modes).uptime = t.uptime := by
  unfold returnUnchanged
  split <;> rfl

@[simp] theorem returnUnchanged_roster : (t.returnUnchanged modes).roster = t.roster := by
  unfold returnUnchanged
  split <;> rfl

@[simp] theorem returnUnchanged_shadow : (t.returnUnchanged modes).shadow = t.shadow := by
  unfold returnUnchanged
  split <;> rfl

@[simp] theorem returnUnchanged_layout : (t.returnUnchanged modes).layout = t.layout := by
  unfold returnUnchanged
  split <;> rfl

@[simp] theorem publish_uptime : (t.publish modes).uptime = t.uptime := by
  simp only [publish]
  split <;> rfl

@[simp] theorem publish_roster : (t.publish modes).roster = t.roster := by
  simp only [publish]
  split <;> rfl

/-- A publication stops the deadline unless evidence is already waiting for the next one. -/
@[simp] theorem publish_shadow : (t.publish modes).shadow = { t.shadow with
    membershipDeadlineArmed :=
      if t.shadow.pendingJoinMask = 0#32 then false else t.shadow.membershipDeadlineArmed } := by
  simp only [publish]
  split <;> rfl

/-- The layout a publication puts in force. -/
@[simp] theorem publish_layout : (t.publish modes).layout = { t.layout with
    tdmaConfigPacked := assignSlots t.newMask t.activeCount (t.slotTicks modes)
      (if t.activeCount = 0 then t.layout.configEpoch else t.layout.configEpoch + 1)
      t.layout.tdmaConfigPacked
    configEpoch := if t.activeCount = 0 then t.layout.configEpoch else t.layout.configEpoch + 1
    dynamicActiveCount := t.activeCount
    dynamicSlotTicks := t.slotTicks modes
    activeMask := t.newMask
    lastReconfigTime := t.uptime
    lastReconfigValid := true } := by
  simp only [publish]
  split <;> rfl

end Frames

/-! ## The new membership -/

theorem hasBit_newMask (t : Tdma) {j : ℕ} (hj : j < maxTrackers) :
    hasBit t.newMask j = (hasBit t.shadow.desiredMask j && decide (j < t.roster.storedTrackers)) := by
  have hle := t.roster.stored_le
  rw [newMask, hasBit_and, recalculateStoredMask]
  split
  case isTrue hfull =>
    rw [hasBit_allOnes, decide_eq_true (hj.trans (by decide)), decide_eq_true (hj.trans_le hfull)]
  case isFalse hfull => rw [hasBit_lowBits ((not_le.mp hfull).trans (by decide))]

/-- When only stored trackers are desired, the new membership is the desired one. -/
theorem newMask_eq_desired {t : Tdma}
    (hstored : ∀ j, hasBit t.shadow.desiredMask j = true → j < t.roster.storedTrackers) :
    t.newMask = t.shadow.desiredMask := by
  refine mask_ext fun j => ?_
  cases hj : hasBit t.shadow.desiredMask j with
  | false => rw [newMask, hasBit_and, hj, Bool.false_and]
  | true =>
    have hlt := hstored j hj
    rw [hasBit_newMask t (hlt.trans_le t.roster.stored_le), hj, decide_eq_true hlt, Bool.true_and]

/-- The counting loop counts members. -/
theorem activeCount_eq_rank (t : Tdma) :
    t.activeCount = rankBelow t.newMask (min t.roster.storedTrackers maxTrackers) := by
  refine forBelow_invariant (P := fun n count => count = rankBelow t.newMask n)
    (rankBelow_zero _).symm ?_
  rintro i count - rfl
  rw [rankBelow_succ]
  split <;> rfl

/-- There is someone to count exactly when the new membership is not empty. -/
theorem activeCount_eq_zero_iff {t : Tdma}
    (hstored : ∀ j, hasBit t.shadow.desiredMask j = true → j < t.roster.storedTrackers) :
    t.activeCount = 0 ↔ t.newMask = 0#32 := by
  rw [activeCount_eq_rank, mask_eq_zero_iff, newMask_eq_desired hstored, min_eq_left t.roster.stored_le]
  constructor
  · intro hcount j
    by_contra hj
    have hpos := rankBelow_pos_iff.mpr ⟨j, hstored j (by simpa using hj), by simpa using hj⟩
    omega
  · intro hnone
    by_contra hcount
    obtain ⟨j, -, hj⟩ := rankBelow_pos_iff.mp (Nat.pos_of_ne_zero hcount)
    rw [hnone j] at hj
    exact Bool.false_ne_true hj

end Tdma

end SlimeReceiver
