import SlimeReceiver.Tdma.Machine

/-! # The membership invariant

What the masks of the shadow, the active mask and the deadline flag have to do with each other in
every reachable state.

* **`ShadowCore member t`** — only ids in `member` have bits set, evidence belongs to desired or
  queued trackers and every desired tracker has evidence, and the deadline runs for queued
  evidence and only when there is something to publish.
* **`Settled t`** — between administrative operations the active trackers are stored and an
  unpublished membership has its deadline running.
* **`membership_invariant`** — both hold of every reachable state; `Settled` outside an
  administrative operation. -/

namespace SlimeReceiver

namespace Tdma

/-- A roster operation has reset a slot and its forced `tdma_recalculate` is not done yet. -/
def AdminInProgress (t : Tdma) : Prop := ∃ diagnosticsReset, t.storeTask = .recalculate true diagnosticsReset

/-- The relations between the masks of the shadow that hold at every moment. -/
structure ShadowCore (member : ℕ → Prop) (t : Tdma) : Prop where
  desired_member : ∀ j, hasBit t.shadow.desiredMask j = true → member j
  pending_member : ∀ j, hasBit t.shadow.pendingJoinMask j = true → member j
  live_member : ∀ j, hasBit t.shadow.liveEvidenceMask j = true → member j
  /-- No desired tracker is without evidence. -/
  desired_live : ∀ j, hasBit t.shadow.desiredMask j = true →
    hasBit t.shadow.liveEvidenceMask j = true
  /-- Evidence is either merged or queued. -/
  live_wanted : ∀ j, hasBit t.shadow.liveEvidenceMask j = true →
    hasBit t.shadow.desiredMask j = true ∨ hasBit t.shadow.pendingJoinMask j = true
  pending_armed : t.shadow.pendingJoinMask ≠ 0#32 → t.shadow.membershipDeadlineArmed = true
  armed_needed : t.shadow.membershipDeadlineArmed = true →
    t.shadow.desiredMask ≠ t.layout.activeMask ∨ t.shadow.pendingJoinMask ≠ 0#32

/-- What holds in addition when no administrative operation is under way. -/
structure Settled (t : Tdma) : Prop where
  active_stored : ∀ j, hasBit t.layout.activeMask j = true → j < t.roster.storedTrackers
  unpublished_armed : t.shadow.desiredMask ≠ t.layout.activeMask →
    t.shadow.membershipDeadlineArmed = true

/-- The membership invariant. -/
structure MembershipInv (t : Tdma) : Prop where
  core : ShadowCore (· < t.roster.storedTrackers) t
  restored : t.roster.storeReady = false → t.roster.storedTrackers = 0
  settled : ¬AdminInProgress t → Settled t

/-! ## Rules for the parts of a step -/

section Rules

variable {member member' : ℕ → Prop} {t t' : Tdma}

theorem ShadowCore.mono (h : ShadowCore member t) (himp : ∀ j, member j → member' j) :
    ShadowCore member' t :=
  { h with
    desired_member := fun j hj => himp j (h.desired_member j hj)
    pending_member := fun j hj => himp j (h.pending_member j hj)
    live_member := fun j hj => himp j (h.live_member j hj) }

/-- The core reads only the shadow and the active mask. -/
theorem ShadowCore.frame (h : ShadowCore member t) (hshadow : t'.shadow = t.shadow)
    (hactive : t'.layout.activeMask = t.layout.activeMask) : ShadowCore member t' := by
  constructor
  · rw [hshadow]; exact h.desired_member
  · rw [hshadow]; exact h.pending_member
  · rw [hshadow]; exact h.live_member
  · rw [hshadow]; exact h.desired_live
  · rw [hshadow]; exact h.live_wanted
  · rw [hshadow]; exact h.pending_armed
  · rw [hshadow, hactive]; exact h.armed_needed

/-- A step that leaves the shadow, the roster and the active mask and finishes no administrative
operation keeps the invariant. -/
theorem MembershipInv.frame (h : MembershipInv t) (hshadow : t'.shadow = t.shadow)
    (hroster : t'.roster = t.roster) (hactive : t'.layout.activeMask = t.layout.activeMask)
    (htask : AdminInProgress t → AdminInProgress t') : MembershipInv t' where
  core := by rw [hroster]; exact h.core.frame hshadow hactive
  restored := by rw [hroster]; exact h.restored
  settled hquiet := by
    have hsettled := h.settled fun hadmin => hquiet (htask hadmin)
    constructor
    · rw [hactive, hroster]; exact hsettled.active_stored
    · rw [hshadow, hactive]; exact hsettled.unpublished_armed

/-- A slot reset takes the tracker out of every mask. -/
theorem ShadowCore.slotReset (h : ShadowCore member t) {id : ℕ} (hid : id < maxTrackers) :
    ShadowCore (fun j => member j ∧ j ≠ id) (t.trackerSlotReset id) := by
  have hshadow := trackerSlotReset_shadow hid t
  have hdesired : ∀ j, hasBit (t.trackerSlotReset id).shadow.desiredMask j =
      (hasBit t.shadow.desiredMask j && !decide (id = j)) := by simp [hshadow]
  have hpending : ∀ j, hasBit (t.trackerSlotReset id).shadow.pendingJoinMask j =
      (hasBit t.shadow.pendingJoinMask j && !decide (id = j)) := by simp [hshadow]
  have hlive : ∀ j, hasBit (t.trackerSlotReset id).shadow.liveEvidenceMask j =
      (hasBit t.shadow.liveEvidenceMask j && !decide (id = j)) := by simp [hshadow]
  constructor
  · intro j hj
    simp only [hdesired, Bool.and_eq_true, Bool.not_eq_true', decide_eq_false_iff_not] at hj
    exact ⟨h.desired_member j hj.1, Ne.symm hj.2⟩
  · intro j hj
    simp only [hpending, Bool.and_eq_true, Bool.not_eq_true', decide_eq_false_iff_not] at hj
    exact ⟨h.pending_member j hj.1, Ne.symm hj.2⟩
  · intro j hj
    simp only [hlive, Bool.and_eq_true, Bool.not_eq_true', decide_eq_false_iff_not] at hj
    exact ⟨h.live_member j hj.1, Ne.symm hj.2⟩
  · intro j hj
    rw [hdesired, Bool.and_eq_true] at hj
    rw [hlive, h.desired_live j hj.1, hj.2, Bool.and_self]
  · intro j hj
    rw [hlive, Bool.and_eq_true] at hj
    rw [hdesired, hpending, hj.2, Bool.and_true, Bool.and_true]
    exact h.live_wanted j hj.1
  · intro hqueued
    obtain ⟨j, hj⟩ := exists_mem_of_mask_ne_zero hqueued
    rw [hpending, Bool.and_eq_true] at hj
    have harmed := h.pending_armed (mask_ne_zero_of_mem hj.1)
    rw [hshadow] at hqueued ⊢
    simp only
    rw [if_neg fun hstop => hqueued hstop.2]
    exact harmed
  · intro harmed
    rw [trackerSlotReset_layout, hshadow] at *
    simp only at harmed ⊢
    split at harmed
    · exact absurd harmed Bool.false_ne_true
    · rename_i hrest
      exact not_and_or.mp hrest

/-- Evidence of a tracker in `member` queues a join or confirms a desired tracker. -/
theorem ShadowCore.observe (h : ShadowCore member t) {trackerId : ℕ} (evidence : ShadowEvidence)
    (hid : trackerId < t.roster.storedTrackers) (hmember : member trackerId) :
    ShadowCore member (t.tdmaShadowObserve trackerId evidence) := by
  have hlive : ∀ j, hasBit (t.tdmaShadowObserve trackerId evidence).shadow.liveEvidenceMask j =
      (hasBit t.shadow.liveEvidenceMask j || decide (trackerId = j)) := by
    have hrange : trackerId < 32 := (hid.trans_le t.roster.stored_le).trans (by decide)
    simp [tdmaShadowObserve_liveEvidenceMask evidence hid, hrange]
  have hpending : ∀ j, hasBit (t.tdmaShadowObserve trackerId evidence).shadow.pendingJoinMask j =
      (hasBit t.shadow.pendingJoinMask j ||
        (!hasBit t.shadow.desiredMask trackerId && decide (trackerId = j))) := by
    have hrange : trackerId < 32 := (hid.trans_le t.roster.stored_le).trans (by decide)
    intro j
    rw [tdmaShadowObserve_pendingJoinMask evidence hid]
    cases hdesired : hasBit t.shadow.desiredMask trackerId <;> simp [hrange]
  have harmed := tdmaShadowObserve_armed evidence hid
  constructor
  · rw [tdmaShadowObserve_desiredMask]
    exact h.desired_member
  · intro j hj
    rw [hpending, Bool.or_eq_true, Bool.and_eq_true, decide_eq_true_eq] at hj
    rcases hj with hj | ⟨-, rfl⟩
    · exact h.pending_member j hj
    · exact hmember
  · intro j hj
    rw [hlive, Bool.or_eq_true, decide_eq_true_eq] at hj
    rcases hj with hj | rfl
    · exact h.live_member j hj
    · exact hmember
  · intro j hj
    rw [tdmaShadowObserve_desiredMask] at hj
    rw [hlive, h.desired_live j hj, Bool.true_or]
  · intro j hj
    rw [hlive, Bool.or_eq_true, decide_eq_true_eq] at hj
    rw [tdmaShadowObserve_desiredMask, hpending]
    rcases hj with hj | rfl
    · rcases h.live_wanted j hj with hdesired | hqueued
      · exact .inl hdesired
      · exact .inr (by rw [hqueued, Bool.true_or])
    · cases hdesired : hasBit t.shadow.desiredMask trackerId with
      | true => exact .inl rfl
      | false => exact .inr (by simp)
  · intro hqueued
    obtain ⟨j, hj⟩ := exists_mem_of_mask_ne_zero hqueued
    rw [hpending, Bool.or_eq_true, Bool.and_eq_true] at hj
    rw [harmed, Bool.or_eq_true]
    rcases hj with hj | ⟨hnew, -⟩
    · exact .inl (h.pending_armed (mask_ne_zero_of_mem hj))
    · exact .inr hnew
  · intro hafter
    rw [harmed, Bool.or_eq_true] at hafter
    rw [tdmaShadowObserve_desiredMask, tdmaShadowObserve_layout]
    rcases hafter with hbefore | hnew
    · rcases h.armed_needed hbefore with hchange | hqueued
      · exact .inl hchange
      · obtain ⟨j, hj⟩ := exists_mem_of_mask_ne_zero hqueued
        exact .inr (mask_ne_zero_of_mem (j := j) (by rw [hpending, hj, Bool.true_or]))
    · exact .inr (mask_ne_zero_of_mem (j := trackerId) (by rw [hpending, hnew]; simp))

/-- A merge leaves only stored trackers desired and nothing queued. -/
theorem ShadowCore.merged (h : ShadowCore (· < t.roster.storedTrackers) t) (nowMs : BitVec 32) :
    ShadowCore (· < t.roster.storedTrackers) (t.merged nowMs) := by
  have hdesired := hasBit_merged_desiredMask nowMs t
  have hlive := hasBit_merged_liveEvidenceMask nowMs t
  constructor
  · intro j hj
    rw [hdesired, Bool.and_eq_true, decide_eq_true_eq] at hj
    exact hj.1
  · intro j hj
    rw [merged_pendingJoinMask] at hj
    simp at hj
  · intro j hj
    rw [hlive] at hj
    split at hj
    case isTrue hstored => exact hstored
    case isFalse => exact h.live_member j hj
  · intro j hj
    rw [hdesired, Bool.and_eq_true, decide_eq_true_eq] at hj
    rw [hlive, if_pos hj.1]
    exact (verdictAt_verdict nowMs t j).desired_imp_live rfl (h.desired_live j) hj.2
  · intro j hj
    rw [hlive] at hj
    split at hj
    case isTrue hstored =>
      refine .inl ?_
      rw [hdesired, decide_eq_true hstored, Bool.true_and]
      exact (verdictAt_verdict nowMs t j).live_imp_desired rfl hj
    case isFalse hunstored => exact absurd (h.live_member j hj) hunstored
  · intro hqueued
    exact absurd (merged_pendingJoinMask nowMs t) hqueued
  · intro harmed
    rw [merged_armed, bne_iff_ne] at harmed
    exact .inl harmed

/-- A publication makes the desired membership the active one. -/
theorem ShadowCore.publish (h : ShadowCore (· < t.roster.storedTrackers) t)
    (modes : RecalculateModes) : ShadowCore (· < t.roster.storedTrackers) (t.publish modes) := by
  have hshadow := publish_shadow modes t
  constructor
  · rw [hshadow]; exact h.desired_member
  · rw [hshadow]; exact h.pending_member
  · rw [hshadow]; exact h.live_member
  · rw [hshadow]; exact h.desired_live
  · rw [hshadow]; exact h.live_wanted
  · intro hqueued
    rw [hshadow] at hqueued ⊢
    simp only at hqueued ⊢
    rw [if_neg hqueued]
    exact h.pending_armed hqueued
  · intro harmed
    rw [hshadow] at harmed ⊢
    simp only at harmed ⊢
    split at harmed
    · exact absurd harmed Bool.false_ne_true
    · rename_i hqueued
      exact .inr hqueued

end Rules

/-! ## The invariant of a pass -/

section Pass

variable {t : Tdma} {forced diagnosticsReset : Bool} {modes : RecalculateModes}

theorem MembershipInv.merged (h : MembershipInv t) (nowMs : BitVec 32) :
    MembershipInv (t.merged nowMs) where
  core := h.core.merged nowMs
  restored := h.restored
  settled hquiet := by
    have hsettled := h.settled hquiet
    refine ⟨hsettled.active_stored, fun hchange => ?_⟩
    rw [merged_armed, bne_iff_ne]
    exact hchange

@[simp] theorem resampled_storeTask :
    (t.resampled forced diagnosticsReset).storeTask = t.storeTask := by
  unfold resampled
  split <;> rfl

@[simp] theorem decided_storeTask :
    (t.decided forced diagnosticsReset modes).storeTask = t.storeTask := by
  rw [decided, adoptLevel_eq, resampled_storeTask]

theorem MembershipInv.decided (h : MembershipInv t) :
    MembershipInv (t.decided forced diagnosticsReset modes) := by
  have hresampled : MembershipInv (t.resampled forced diagnosticsReset) := by
    unfold resampled
    split
    · exact h.merged _
    · exact h
  refine hresampled.frame ?_ ?_ ?_ ?_
  · simp
  · simp
  · simp
  · rintro ⟨again, hagain⟩
    exact ⟨again, by simpa using hagain⟩

/-- In every state the invariant holds of, an unchanged membership is the desired one. -/
theorem MembershipInv.desired_eq_active (h : MembershipInv t) (hsame : t.maskChanged = false) :
    t.shadow.desiredMask = t.layout.activeMask := by
  rw [maskChanged, bne_eq_false_iff_eq, newMask_eq_desired h.core.desired_member] at hsame
  exact hsame

/-- Where the desired membership is the active one, nothing more is needed to be settled. -/
theorem MembershipInv.of_published (hcore : ShadowCore (· < t.roster.storedTrackers) t)
    (hrestored : t.roster.storeReady = false → t.roster.storedTrackers = 0)
    (hsame : t.shadow.desiredMask = t.layout.activeMask) : MembershipInv t where
  core := hcore
  restored := hrestored
  settled _ := ⟨fun j hj => hcore.desired_member j (hsame ▸ hj), fun hchange => absurd hsame hchange⟩

/-- **A pass keeps the membership invariant**, and the forced pass of an administrative operation
settles it. -/
theorem MembershipInv.pass (h : MembershipInv t)
    (htask : t.storeTask = .recalculate forced diagnosticsReset) :
    MembershipInv { (t.recalculatePass forced diagnosticsReset modes).1 with
      storeTask := taskAfter forced (t.recalculatePass forced diagnosticsReset modes).2 } := by
  have hd : MembershipInv (t.decided forced diagnosticsReset modes) := h.decided
  have htaskd : (t.decided forced diagnosticsReset modes).storeTask =
      .recalculate forced diagnosticsReset := by rw [decided_storeTask, htask]
  have hresult := recalculatePass_result forced diagnosticsReset modes t
  revert hd htaskd hresult
  generalize t.decided forced diagnosticsReset modes = d
  generalize t.recalculatePass forced diagnosticsReset modes = r
  intro hd htaskd hresult
  cases hresult with
  | empty hsame =>
    exact .of_published (hd.core.frame rfl rfl) hd.restored (hd.desired_eq_active hsame)
  | unchanged hsame =>
    refine .of_published ?_ ?_ ?_
    · exact ShadowCore.frame (by simpa using hd.core) (returnUnchanged_shadow modes d) (by simp)
    · simpa using hd.restored
    · simpa using hd.desired_eq_active hsame
  | wait _ hunforced =>
    refine hd.frame rfl rfl rfl ?_
    rintro ⟨again, hagain⟩
    rw [htaskd, hunforced] at hagain
    cases hagain
  | again =>
    refine hd.frame rfl rfl rfl ?_
    rintro ⟨again, hagain⟩
    rw [htaskd] at hagain
    cases hagain
    exact ⟨true, rfl⟩
  | publish =>
    refine .of_published ?_ ?_ ?_
    · exact ShadowCore.frame (t := d.publish modes) (by simpa using hd.core.publish modes) rfl rfl
    · simpa using hd.restored
    · simpa using (newMask_eq_desired hd.core.desired_member).symm

end Pass

/-! ## The invariant of the roster operations -/

section Administration

variable {t : Tdma}

theorem not_adminInProgress (htask : t.storeTask = .idle) : ¬AdminInProgress t := by
  rintro ⟨again, hagain⟩
  rw [htask] at hagain
  cases hagain

theorem MembershipInv.addPair (h : MembershipInv t) (htask : t.storeTask = .idle)
    (hready : t.roster.storeReady = true) (addresses : ℕ → ℕ)
    (hroom : t.roster.storedTrackers < maxTrackers) :
    MembershipInv { t.trackerSlotReset t.roster.storedTrackers with
      roster := { t.roster with
        storedTrackers := t.roster.storedTrackers + 1
        storedTrackerAddr := addresses
        stored_le := hroom } } := by
  have hsettled := h.settled (not_adminInProgress htask)
  have hreset := h.core.slotReset hroom
  refine ⟨ShadowCore.frame (hreset.mono fun j hj => Nat.lt_succ_of_lt hj.1) rfl rfl, ?_,
    fun _ => ⟨?_, ?_⟩⟩
  · intro hnot
    exact absurd (hready.symm.trans hnot) (by decide)
  · intro j hj
    exact Nat.lt_succ_of_lt (hsettled.active_stored j (by simpa using hj))
  · -- the id was not stored, so the reset found no bit of it to clear
    intro hchange
    have hdesired : clearBit t.shadow.desiredMask t.roster.storedTrackers = t.shadow.desiredMask := by
      refine mask_ext fun j => ?_
      rw [hasBit_clearBit]
      cases hj : hasBit t.shadow.desiredMask j with
      | false => rfl
      | true => simp [(h.core.desired_member j hj).ne']
    have hshadow := trackerSlotReset_shadow hroom t
    simp only [hshadow, trackerSlotReset_layout, hdesired] at hchange ⊢
    rw [if_neg fun hstop => hchange hstop.1]
    exact hsettled.unpublished_armed hchange

theorem MembershipInv.popPair (h : MembershipInv t) (hnonempty : t.roster.storedTrackers ≠ 0) :
    MembershipInv
      { trackerSlotReset (t.roster.storedTrackers - 1) { t with roster := t.withoutLast } with
        storeTask := .recalculate true false } := by
  have hlast : t.roster.storedTrackers - 1 < maxTrackers := by
    have hle := t.roster.stored_le
    omega
  have hreset := ShadowCore.slotReset (t := { t with roster := t.withoutLast })
    (h.core.frame rfl rfl) hlast
  refine ⟨ShadowCore.frame (hreset.mono fun j hj => ?_) rfl rfl, ?_, fun hquiet => ?_⟩
  · rw [trackerSlotReset_roster]
    change j < t.roster.storedTrackers - 1
    omega
  · intro hready
    rw [trackerSlotReset_roster] at hready ⊢
    have hempty := h.restored hready
    exact absurd hempty hnonempty
  · exact absurd ⟨false, rfl⟩ hquiet

/-- The loop of `esb_clear` empties the masks. -/
theorem MembershipInv.clear (h : MembershipInv t) :
    MembershipInv { t.cleared with storeTask := .recalculate true false } := by
  have hcore : ShadowCore (· < 0) t.cleared := by
    -- after `i` resets only ids from `i` on have bits left
    have hloop := forBelow_invariant (n := maxTrackers)
      (P := fun i s => ShadowCore (fun j => j < maxTrackers ∧ i ≤ j) s)
      (s := { t with roster := { t.roster with
        storedTrackers := 0, storedTrackerAddr := fun _ => 0, stored_le := Nat.zero_le _ } })
      (ShadowCore.frame (h.core.mono fun j hj => ⟨lt_of_lt_of_le hj t.roster.stored_le, Nat.zero_le j⟩)
        rfl rfl)
      fun i s hi hs => (ShadowCore.slotReset hs hi).mono fun j hj => by omega
    have hnone : ShadowCore (· < 0) _ := hloop.mono fun j hj => by omega
    exact { hnone with }
  refine ⟨ShadowCore.frame (hcore.mono fun j hj => absurd hj (Nat.not_lt_zero j)) rfl rfl, ?_, ?_⟩
  · intro hready
    exact absurd hready (by simp [cleared])
  · exact fun hquiet => absurd ⟨false, rfl⟩ hquiet

theorem MembershipInv.restoreStore (h : MembershipInv t) (hready : t.roster.storeReady = false)
    {count : ℕ} (addresses : ℕ → ℕ) (hcount : count ≤ maxTrackers) :
    MembershipInv { t with roster :=
      { storedTrackers := count
        storedTrackerAddr := addresses
        storeReady := true
        stored_le := hcount } } := by
  have hempty := h.restored hready
  have hnone : ∀ j, j < t.roster.storedTrackers → j < count := fun j hj => by omega
  refine ⟨(h.core.mono hnone).frame rfl rfl, ?_, fun hquiet => ?_⟩
  · intro hnot
    exact absurd hnot (Bool.false_ne_true ∘ Eq.symm)
  · have hsettled := h.settled hquiet
    exact ⟨fun j hj => hnone j (hsettled.active_stored j hj), hsettled.unpublished_armed⟩

end Administration

/-! ## The invariant of the system -/

theorem membershipInv_init : MembershipInv Tdma.init where
  core := by
    constructor <;> simp [Tdma.init, Shadow.init]
  restored _ := rfl
  settled _ := ⟨by simp [Tdma.init, Layout.init], fun hchange => absurd rfl hchange⟩

/-- **Every step keeps the membership invariant.** -/
theorem MembershipInv.step {t t' : Tdma} {op : TdmaOp} {es : List TdmaEvent}
    (h : MembershipInv t) (hstep : tdmaStep t op = some (t', es)) : MembershipInv t' := by
  cases tdmaStep_rel hstep with
  | advance | autoLossInvalidate | resetLossStats => exact h.frame rfl rfl rfl id
  | stutter => exact h
  | observe trackerId evidence hid =>
    refine ⟨?_, ?_, fun hquiet => ?_⟩
    · rw [tdmaShadowObserve_roster]
      exact h.core.observe evidence hid hid
    · rw [tdmaShadowObserve_roster]
      exact h.restored
    · have hsettled := h.settled (by simpa [AdminInProgress] using hquiet)
      refine ⟨by simpa using hsettled.active_stored, fun hchange => ?_⟩
      rw [tdmaShadowObserve_desiredMask, tdmaShadowObserve_layout] at hchange
      rw [tdmaShadowObserve_armed evidence hid, hsettled.unpublished_armed hchange, Bool.true_or]
  | readClock htask | callRecalculate htask | lossTick _ htask =>
    exact h.frame rfl rfl rfl fun hadmin => absurd hadmin (not_adminInProgress htask)
  | update readAt htask =>
    have hquiet : ¬AdminInProgress t := by
      rintro ⟨again, hagain⟩
      rw [htask] at hagain
      cases hagain
    exact (h.merged (stamp readAt)).frame rfl rfl rfl fun hadmin => absurd hadmin hquiet
  | pass forced diagnosticsReset modes htask => exact h.pass htask
  | addPair addr written hroom htask hready => exact h.addPair htask hready _ hroom
  | popPair written htask hnonempty => exact h.popPair hnonempty
  | clear => exact h.clear
  | restoreStore count addresses hcount _ hready => exact h.restoreStore hready addresses hcount

/-- The membership invariant holds of every reachable state. -/
theorem membership_invariant {t : Tdma} (h : tdmaSystem.Reachable t) : MembershipInv t :=
  h.invariant membershipInv_init fun _ _ _ _ hs hstep => hs.step hstep

end Tdma

end SlimeReceiver
