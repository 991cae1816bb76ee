import SlimeReceiver.Tdma.LayoutChange

/-! # The membership deadline is never lost

* **`tdmaMembershipWaitMs`** — how long the statistics thread sleeps.
* **`membershipWaitMs_lt`** — while the deadline runs the sleep is bounded, whatever the maximum.
* **`membership_deadline_not_lost`** — the deadline runs exactly while there is a membership to
  publish or evidence to merge, and a tracker heard but not published is waited for. -/

namespace SlimeReceiver

namespace Tdma

/-- `remaining` of `tdma_membership_wait_ms`: the rest of the cohort or of the minimum spacing. -/
def membershipRemainingMs (t : Tdma) : ℤ :=
  let cohortRemaining := signedDistance t.shadow.membershipDeadlineMs (stamp t.uptime)
  let gapRemaining : ℤ :=
    if t.layout.lastReconfigValid then
      tdmaReconfigMinMs - ((t.uptime : ℤ) - t.layout.lastReconfigTime)
    else 0
  max cohortRemaining gapRemaining

/-- `tdma_membership_wait_ms`. -/
def tdmaMembershipWaitMs (maximumMs : ℕ) (t : Tdma) : ℕ :=
  if t.shadow.membershipDeadlineArmed then
    if t.membershipRemainingMs > 0 then min maximumMs (t.membershipRemainingMs.toNat % 2 ^ 32)
    else 0
  else maximumMs

/-- What remains is less than half the range of the clock. -/
theorem membershipRemainingMs_lt {t : Tdma} (htime : t.layout.lastReconfigTime ≤ t.uptime) :
    t.membershipRemainingMs < 2 ^ 31 := by
  refine max_lt (signedDistance_lt _ _) ?_
  split
  · have hmin : (tdmaReconfigMinMs : ℤ) = 1000 := rfl
    omega
  · decide

/-- While the deadline runs, the sleep is shorter than half the range of the clock. -/
theorem membershipWaitMs_lt {t : Tdma} (harmed : t.shadow.membershipDeadlineArmed = true)
    (htime : t.layout.lastReconfigTime ≤ t.uptime) (maximumMs : ℕ) :
    t.tdmaMembershipWaitMs maximumMs < 2 ^ 31 := by
  have hremaining := membershipRemainingMs_lt htime
  have hmod := Nat.mod_le t.membershipRemainingMs.toNat (2 ^ 32)
  rw [tdmaMembershipWaitMs, if_pos harmed]
  split
  · refine (min_le_right _ _).trans_lt ?_
    omega
  · exact Nat.two_pow_pos 31

/-- Outside an administrative operation the deadline runs exactly while something is left to
publish or to merge. -/
theorem MembershipInv.armed_iff {t : Tdma} (h : MembershipInv t) (hquiet : ¬AdminInProgress t) :
    t.shadow.membershipDeadlineArmed = true ↔
      t.newMask ≠ t.layout.activeMask ∨ t.shadow.pendingJoinMask ≠ 0#32 := by
  rw [newMask_eq_desired h.core.desired_member]
  constructor
  · exact h.core.armed_needed
  · rintro (hchange | hqueued)
    · exact (h.settled hquiet).unpublished_armed hchange
    · exact h.core.pending_armed hqueued

/-- A tracker with evidence that is not active has the deadline running for it. -/
theorem MembershipInv.heard_armed {t : Tdma} (h : MembershipInv t) (hquiet : ¬AdminInProgress t)
    {j : ℕ} (hheard : hasBit t.shadow.liveEvidenceMask j = true)
    (hunpublished : hasBit t.layout.activeMask j = false) :
    t.shadow.membershipDeadlineArmed = true := by
  rcases h.core.live_wanted j hheard with hdesired | hqueued
  · refine (h.settled hquiet).unpublished_armed fun hsame => ?_
    rw [hsame, hunpublished] at hdesired
    exact Bool.false_ne_true hdesired
  · exact h.core.pending_armed (mask_ne_zero_of_mem hqueued)

/-- **No lost deadline.** In every reachable state outside an administrative operation the
deadline runs exactly while the stored desired trackers are not the active ones or evidence is
queued; a tracker that is heard but not active bounds every sleep of the statistics thread. -/
theorem membership_deadline_not_lost {t : Tdma} (h : tdmaSystem.Reachable t)
    (hquiet : ¬AdminInProgress t) :
    (t.shadow.membershipDeadlineArmed = true ↔
        t.newMask ≠ t.layout.activeMask ∨ t.shadow.pendingJoinMask ≠ 0#32) ∧
      ∀ j, hasBit t.shadow.liveEvidenceMask j = true → hasBit t.layout.activeMask j = false →
        ∀ maximumMs, t.tdmaMembershipWaitMs maximumMs < 2 ^ 31 := by
  have hinv := membership_invariant h
  refine ⟨hinv.armed_iff hquiet, fun j hheard hunpublished => ?_⟩
  exact membershipWaitMs_lt (hinv.heard_armed hquiet hheard hunpublished) (reconfigTime_le h)

/-- A tracker heard 40 ms ago is waited for until its cohort closes. -/
theorem membership_deadline_not_lost_heard : ∃ t, tdmaSystem.Reachable t ∧
    t.shadow.membershipDeadlineArmed = true ∧ hasBit t.shadow.liveEvidenceMask 0 = true ∧
      t.tdmaMembershipWaitMs 1000000 = 61 ∧ ∀ maximumMs, t.tdmaMembershipWaitMs maximumMs < 2 ^ 31 := by
  obtain ⟨trace, t, hrun, htest⟩ := tdmaSystem.exists_run_of_replay
    [.restoreStore 1 fun i => i + 1, .observe 0 .ping, .advance 40]
    (fun _ t => decide (t.storeTask = .idle ∧ t.shadow.pendingJoinMask ≠ 0#32 ∧
      hasBit t.shadow.liveEvidenceMask 0 = true ∧ hasBit t.layout.activeMask 0 = false ∧
      t.tdmaMembershipWaitMs 1000000 = 61)) (by decide +kernel)
  rw [decide_eq_true_eq] at htest
  obtain ⟨hidle, hqueued, hheard, hunpublished, hwait⟩ := htest
  have hlaw := membership_deadline_not_lost ⟨trace, hrun⟩ (not_adminInProgress hidle)
  exact ⟨t, ⟨trace, hrun⟩, hlaw.1.mpr (.inr hqueued), hheard, hwait,
    hlaw.2 0 hheard hunpublished⟩

end Tdma

end SlimeReceiver
