import SlimeReceiver.Tdma.LayoutChange

/-! # No two trackers share a slot

* **`ExclusiveSlots`** — the slot words assign no slot twice.
* **`PublishedLayout`** — what the slot words look like right after a publication.
* **`tdma_slots_exclusive`** — the first in every reachable state, the second after every
  publication. -/

namespace SlimeReceiver

open Function (update)

namespace Tdma

/-- No two trackers hold the same valid slot. -/
def ExclusiveSlots (words : ℕ → BitVec 32) : Prop :=
  ∀ i < maxTrackers, ∀ j < maxTrackers, i ≠ j → ValidConfig (words i) → ValidConfig (words j) →
    configSlot (words i) ≠ configSlot (words j)

/-- The slot words agree with the active mask: members hold the slots `0, …, n - 1` in the order
of their ids, the others none, and all carry the total, width and epoch in force. -/
structure PublishedLayout (t : Tdma) : Prop where
  active_stored : ∀ i, hasBit t.layout.activeMask i = true → i < t.roster.storedTrackers
  active_count : t.layout.dynamicActiveCount = popcount t.layout.activeMask
  member_slot : ∀ i < maxTrackers, hasBit t.layout.activeMask i = true →
    (configSlot (t.layout.tdmaConfigPacked i)).toNat = rankBelow t.layout.activeMask i
  slot_taken : ∀ slot < popcount t.layout.activeMask, ∃ i < maxTrackers,
    hasBit t.layout.activeMask i = true ∧ (configSlot (t.layout.tdmaConfigPacked i)).toNat = slot
  other_slot : ∀ i < maxTrackers, hasBit t.layout.activeMask i = false →
    configSlot (t.layout.tdmaConfigPacked i) = 0xFF
  total : ∀ i < maxTrackers,
    (configTotal (t.layout.tdmaConfigPacked i)).toNat = popcount t.layout.activeMask
  width : ∀ i < maxTrackers,
    (configTicks (t.layout.tdmaConfigPacked i)).toNat = t.layout.dynamicSlotTicks
  epoch : ∀ i < maxTrackers, configEpochOf (t.layout.tdmaConfigPacked i) = t.layout.configEpoch

/-! ## The words of a publication -/

section Published

variable {mask : TrackerMask} {activeCount slotTicks : ℕ} {epoch : BitVec 8} {i j : ℕ}

/-- A member's slot number fits its byte. -/
theorem assignedConfig_slot_member (hi : i < maxTrackers) (hmem : hasBit mask i = true) :
    (configSlot (assignedConfig mask activeCount slotTicks epoch i)).toNat = rankBelow mask i := by
  have hrank := rankBelow_le mask i
  rw [assignedConfig, configSlot_pack, if_pos hmem, BitVec.toNat_ofNat]
  exact Nat.mod_eq_of_lt (by unfold maxTrackers at hi; omega)

theorem assignedConfig_slot_other (hmem : hasBit mask i = false) :
    configSlot (assignedConfig mask activeCount slotTicks epoch i) = 0xFF := by
  rw [assignedConfig, configSlot_pack, if_neg (by simp [hmem])]

/-- The words of a publication assign no slot twice. -/
theorem exclusiveSlots_assignSlots (words : ℕ → BitVec 32) :
    ExclusiveSlots (assignSlots mask activeCount slotTicks epoch words) := by
  intro i hi j hj hij hvi hvj hslot
  rw [assignSlots_apply, if_pos hi] at hvi hslot
  rw [assignSlots_apply, if_pos hj] at hvj hslot
  have hmem : ∀ k, ValidConfig (assignedConfig mask activeCount slotTicks epoch k) →
      hasBit mask k = true := by
    intro k hk
    by_contra hnone
    exact hk.1 (assignedConfig_slot_other (by simpa using hnone))
  have hrank : rankBelow mask i = rankBelow mask j := by
    rw [← assignedConfig_slot_member hi (hmem i hvi), ← assignedConfig_slot_member hj (hmem j hvj),
      hslot]
  exact hij (rankBelow_injective (hmem i hvi) (hmem j hvj) hrank)

end Published

/-- Zeroed words take part in no conflict. -/
theorem ExclusiveSlots.drop {layout : Layout} (h : ExclusiveSlots layout.tdmaConfigPacked)
    (ids : List ℕ) : ExclusiveSlots (dropSlots ids layout).tdmaConfigPacked := by
  have hword : ∀ k, ValidConfig ((dropSlots ids layout).tdmaConfigPacked k) →
      (dropSlots ids layout).tdmaConfigPacked k = layout.tdmaConfigPacked k := by
    intro k hk
    simp only [dropSlots] at hk ⊢
    split_ifs at hk ⊢
    · exact absurd hk not_validConfig_zero
    · rfl
  intro i hi j hj hij hvi hvj
  have hwi := hword i hvi
  have hwj := hword j hvj
  rw [hwi] at hvi ⊢
  rw [hwj] at hvj ⊢
  exact h i hi j hj hij hvi hvj

/-- A publication decided in a state with the membership invariant leaves a published layout. -/
theorem publishedLayout_publish {d : Tdma} (hd : MembershipInv d) (modes : RecalculateModes)
    (task : StoreTask) : PublishedLayout { d.publish modes with storeTask := task } := by
  have hstored : ∀ i, hasBit d.newMask i = true → i < d.roster.storedTrackers := by
    rw [newMask_eq_desired hd.core.desired_member]
    exact hd.core.desired_member
  have hbound : ∀ i, hasBit d.newMask i = true → i < maxTrackers :=
    fun i hi => (hstored i hi).trans_le d.roster.stored_le
  have hcount : d.activeCount = popcount d.newMask := by
    rw [activeCount_eq_rank, min_eq_left d.roster.stored_le]
    exact (popcount_eq_rankBelow (d.roster.stored_le.trans (by decide)) hstored).symm
  have hsmall : d.activeCount < 256 := by
    have hle := rankBelow_le d.newMask (min d.roster.storedTrackers maxTrackers)
    have hroom := d.roster.stored_le
    rw [activeCount_eq_rank]
    unfold maxTrackers at *
    omega
  have hpop : popcount d.newMask = rankBelow d.newMask maxTrackers :=
    popcount_eq_rankBelow (by decide) hbound
  constructor
  · simpa using hstored
  · simpa using hcount
  · intro i hi hmem
    simp only [publish_layout] at hmem ⊢
    rw [assignSlots_apply, if_pos hi, assignedConfig_slot_member hi hmem]
  · intro slot hslot
    simp only [publish_layout] at hslot ⊢
    rw [hpop] at hslot
    obtain ⟨i, hi, hmem, hrank⟩ := exists_rankBelow_eq hslot
    refine ⟨i, hi, hmem, ?_⟩
    rw [assignSlots_apply, if_pos hi, assignedConfig_slot_member hi hmem, hrank]
  · intro i hi hmem
    simp only [publish_layout] at hmem ⊢
    rw [assignSlots_apply, if_pos hi, assignedConfig_slot_other hmem]
  · intro i hi
    simp only [publish_layout]
    rw [assignSlots_apply, if_pos hi, assignedConfig, configTotal_pack, BitVec.toNat_ofNat, ← hcount]
    exact Nat.mod_eq_of_lt hsmall
  · intro i hi
    simp only [publish_layout]
    rw [assignSlots_apply, if_pos hi, assignedConfig, configTicks_pack, BitVec.toNat_ofNat]
    exact Nat.mod_eq_of_lt (Nat.lt_succ_of_le (tdmaSlotTicksFor_le _ _ _))
  · intro i hi
    simp only [publish_layout]
    rw [assignSlots_apply, if_pos hi, assignedConfig, configEpochOf_pack]

/-! ## The law -/

/-- Every step keeps the slots exclusive. -/
theorem exclusiveSlots_step {t t' : Tdma} {op : TdmaOp} {es : List TdmaEvent} (hinv : MembershipInv t)
    (h : ExclusiveSlots t.layout.tdmaConfigPacked) (hstep : tdmaStep t op = some (t', es)) :
    ExclusiveSlots t'.layout.tdmaConfigPacked := by
  cases layoutChange hinv hstep with
  | keep hlayout => rw [hlayout]; exact h
  | empty _ _ _ _ _ hlayout => rw [hlayout]; exact h
  | reset ids _ hlayout => rw [hlayout]; exact h.drop ids
  | publish _ _ modes d _ _ _ _ _ _ _ hafter =>
    rw [hafter]
    simp only [publish_layout]
    exact exclusiveSlots_assignSlots _

/-- **Slot layout.** In every reachable state no two trackers hold the same valid slot, and every
publication leaves the slot words in agreement with the active mask. -/
theorem tdma_slots_exclusive :
    (∀ t, tdmaSystem.Reachable t → ExclusiveSlots t.layout.tdmaConfigPacked) ∧
      ∀ t op t' es p, tdmaSystem.Reachable t → tdmaStep t op = some (t', es) →
        TdmaEvent.published p ∈ es → PublishedLayout t' := by
  constructor
  · intro t h
    refine (h.invariant (P := fun t => MembershipInv t ∧ ExclusiveSlots t.layout.tdmaConfigPacked)
      ⟨membershipInv_init, ?_⟩ ?_).2
    · intro i _ j _ _ hvi
      exact absurd hvi not_validConfig_zero
    · rintro t op t' es ⟨hinv, hslots⟩ hstep
      exact ⟨hinv.step hstep, exclusiveSlots_step hinv hslots hstep⟩
  · intro t op t' es p hreach hstep hp
    cases layoutChange (membership_invariant hreach) hstep with
    | keep _ hnone => exact absurd hp (hnone p)
    | empty _ _ _ _ _ _ hnone => exact absurd hp (hnone p)
    | reset _ _ _ hnone => exact absurd hp (hnone p)
    | publish _ _ modes d _ _ _ hd _ _ _ hafter =>
      rw [hafter]
      exact publishedLayout_publish hd modes .idle

/-- The pass after `twoHeard` publishes both trackers. -/
theorem tdma_slots_exclusive_twoHeard : ∃ t t' es, tdmaSystem.Reachable t ∧
    tdmaStep t (.pass ⟨false, false⟩) = some (t', es) ∧ ExclusiveSlots t.layout.tdmaConfigPacked ∧
      PublishedLayout t' ∧ t'.layout.activeMask = 3#32 := by
  obtain ⟨t, t', es, hreach, hstep, htest⟩ := tdmaSystem.exists_step_of_replay
    twoHeard (.pass ⟨false, false⟩) (fun _ t' es =>
      decide (TdmaEvent.published twoHeardPublication ∈ es ∧ t'.layout.activeMask = 3#32))
    (by decide +kernel)
  rw [decide_eq_true_eq] at htest
  exact ⟨t, t', es, hreach, hstep, tdma_slots_exclusive.1 t hreach,
    tdma_slots_exclusive.2 t _ t' es _ hreach hstep htest.1, htest.2⟩

end Tdma

end SlimeReceiver
