import SlimeReceiver.Tdma.Membership

/-! # How a step changes the layout

* **`LayoutChange`** — the four things a step can do to the layout, with the events it reports;
  `layoutChange` says every step does one of them.
* **`reconfigTime_le`** — the time of the last publication is not in the future. -/

namespace SlimeReceiver

open Function (update)

namespace Tdma

/-- A layout whose words for `ids` were zeroed by slot resets. -/
def dropSlots (ids : List ℕ) (layout : Layout) : Layout :=
  { layout with
    tdmaConfigPacked := fun i => if i ∈ ids then 0 else layout.tdmaConfigPacked i }

theorem dropSlots_singleton (id : ℕ) (layout : Layout) : dropSlots [id] layout =
    { layout with tdmaConfigPacked := update layout.tdmaConfigPacked id 0 } := by
  unfold dropSlots
  congr 1
  funext i
  simp [Function.update_apply]

theorem dropSlots_dropSlots (ids ids' : List ℕ) (layout : Layout) :
    dropSlots ids (dropSlots ids' layout) = dropSlots (ids' ++ ids) layout := by
  simp only [dropSlots, List.mem_append, Layout.mk.injEq, and_true]
  funext i
  by_cases hi : i ∈ ids <;> simp [hi]

/-- What a step from `t` to `t'` did to the layout. -/
inductive LayoutChange (t : Tdma) (op : TdmaOp) (t' : Tdma) (es : List TdmaEvent) : Prop
  /-- Nothing. -/
  | keep : t'.layout = t.layout → (∀ p, TdmaEvent.published p ∉ es) → LayoutChange t op t' es
  /-- A pass without members restored the base width. -/
  | empty (forced diagnosticsReset : Bool) : t.storeTask = .recalculate forced diagnosticsReset →
      t'.storeTask = .idle → t.layout.activeMask = 0#32 →
      t'.layout = { t.layout with dynamicSlotTicks := tdmaBaseSlotTicks } →
      (∀ p, TdmaEvent.published p ∉ es) → LayoutChange t op t' es
  /-- The holder of the roster lock reset the slots `ids`. -/
  | reset (ids : List ℕ) : t.storeTask = .idle →
      t'.layout = dropSlots ids t.layout →
      (∀ p, TdmaEvent.published p ∉ es) → LayoutChange t op t' es
  /-- A pass published what it had decided on in state `d`. -/
  | publish (forced diagnosticsReset : Bool) (modes : RecalculateModes) (d : Tdma) :
      op = .pass modes → t.storeTask = .recalculate forced diagnosticsReset →
      d = t.decided forced diagnosticsReset modes → MembershipInv d →
      d.maskChanged = true ∨ d.activeCount ≠ 0 ∧ d.slotTicks modes ≠ d.layout.dynamicSlotTicks →
      forced = true ∨ d.mustWait modes.testAllEnabled = false →
      d.activeCount = 0 ∨ diagnosticsReset = true →
      t' = { d.publish modes with storeTask := .idle } →
      (∃ before, es = before ++ [TdmaEvent.published (d.publication forced modes)] ∧
        ∀ p, TdmaEvent.published p ∉ before) → LayoutChange t op t' es

/-- The slot words after the resets of `esb_clear`. -/
theorem cleared_layout (t : Tdma) : t.cleared.layout = dropSlots (List.range maxTrackers) t.layout := by
  refine forBelow_invariant (n := maxTrackers)
    (P := fun n (s : Tdma) => s.layout = dropSlots (List.range n) t.layout) ?_ ?_
  · simp [dropSlots]
  · intro n s _ hs
    rw [List.range_succ, ← dropSlots_dropSlots, ← hs, dropSlots_singleton]
    exact trackerSlotReset_layout n s

theorem not_published_passEvents {forced diagnosticsReset : Bool} {modes : RecalculateModes}
    {t : Tdma} (h : (t.recalculatePass forced diagnosticsReset modes).2 ≠ .published)
    (p : Publication) : TdmaEvent.published p ∉ t.passEvents forced diagnosticsReset modes := by
  intro hp
  simp only [passEvents, if_neg h, List.append_nil, List.mem_append] at hp
  rcases hp with hp | hp <;> split_ifs at hp <;> simp at hp

theorem published_passEvents {forced diagnosticsReset : Bool} {modes : RecalculateModes}
    {t : Tdma} (h : (t.recalculatePass forced diagnosticsReset modes).2 = .published) :
    ∃ before, t.passEvents forced diagnosticsReset modes =
        before ++ [TdmaEvent.published ((t.decided forced diagnosticsReset modes).publication forced modes)] ∧
      ∀ p, TdmaEvent.published p ∉ before := by
  refine ⟨_, by rw [passEvents, if_pos h], fun p hp => ?_⟩
  rcases List.mem_append.mp hp with hp | hp <;> split_ifs at hp <;> simp at hp

/-- **Every step changes the layout in one of these ways.** -/
theorem layoutChange {t t' : Tdma} {op : TdmaOp} {es : List TdmaEvent} (h : MembershipInv t)
    (hstep : tdmaStep t op = some (t', es)) : LayoutChange t op t' es := by
  cases tdmaStep_rel hstep with
  | advance | stutter | readClock | callRecalculate | autoLossInvalidate | restoreStore =>
    exact .keep rfl (by simp)
  | observe => exact .keep (tdmaShadowObserve_layout _) (by simp)
  | update | lossTick | resetLossStats => exact .keep rfl (by simp)
  | addPair =>
    refine .reset [t.roster.storedTrackers] ‹_› ?_ (by simp)
    rw [dropSlots_singleton]
    exact trackerSlotReset_layout _ t
  | popPair =>
    refine .reset [t.roster.storedTrackers - 1] ‹_› ?_ (by simp)
    rw [dropSlots_singleton]
    exact trackerSlotReset_layout _ _
  | clear => exact .reset (List.range maxTrackers) ‹_› (cleared_layout t) (by simp)
  | pass forced diagnosticsReset modes htask =>
    have hd : MembershipInv (t.decided forced diagnosticsReset modes) := h.decided
    have hresult := recalculatePass_result forced diagnosticsReset modes t
    have hlayout := decided_layout forced diagnosticsReset modes t
    generalize hr : t.recalculatePass forced diagnosticsReset modes = r at hresult ⊢
    cases hresult with
    | empty hsame hcount =>
      refine .empty _ _ htask rfl ?_ ?_ (not_published_passEvents (by simp [hr]))
      · have hnew := (activeCount_eq_zero_iff hd.core.desired_member).mp hcount
        rw [maskChanged, bne_eq_false_iff_eq, hnew, hlayout] at hsame
        exact hsame.symm
      · simp [returnEmpty, acknowledgeLevel]
    | unchanged =>
      refine .keep ?_ (not_published_passEvents (by simp [hr]))
      simp
    | wait =>
      refine .keep ?_ (not_published_passEvents (by simp [hr]))
      exact hlayout
    | again =>
      refine .keep ?_ (not_published_passEvents (by simp [hr]))
      exact hlayout
    | publish hdue hready hlast =>
      exact .publish forced diagnosticsReset modes _ rfl htask rfl hd hdue hready hlast rfl
        (published_passEvents (by rw [hr]))

/-! ## The time of the last publication -/

/-- The clock never goes back. -/
theorem uptime_le {t t' : Tdma} {op : TdmaOp} {es : List TdmaEvent}
    (hstep : tdmaStep t op = some (t', es)) : t.uptime ≤ t'.uptime := by
  cases tdmaStep_rel hstep with
  | advance ms => exact Nat.le_add_right _ ms
  | stutter | readClock | update | callRecalculate | lossTick | autoLossInvalidate
  | resetLossStats | restoreStore => exact le_rfl
  | observe => simp
  | addPair | popPair => simp
  | clear => exact (cleared_uptime t).ge
  | pass forced diagnosticsReset modes =>
    have hresult := recalculatePass_result forced diagnosticsReset modes t
    have huptime := decided_uptime forced diagnosticsReset modes t
    generalize t.recalculatePass forced diagnosticsReset modes = r at hresult ⊢
    cases hresult <;> simp [returnEmpty, acknowledgeLevel]

/-- The last publication is not in the future. -/
theorem reconfigTime_le {t : Tdma} (h : tdmaSystem.Reachable t) :
    t.layout.lastReconfigTime ≤ t.uptime := by
  refine (h.invariant (P := fun t => MembershipInv t ∧ t.layout.lastReconfigTime ≤ t.uptime)
    ⟨membershipInv_init, le_rfl⟩ ?_).2
  rintro t op t' es ⟨hinv, htime⟩ hstep
  refine ⟨hinv.step hstep, ?_⟩
  have hclock := uptime_le hstep
  cases layoutChange hinv hstep with
  | keep hlayout => rw [hlayout]; omega
  | empty _ _ _ _ _ hlayout => rw [hlayout]; exact htime.trans hclock
  | reset ids _ hlayout => rw [hlayout]; exact htime.trans hclock
  | publish _ _ _ d _ _ _ _ _ _ _ hafter => rw [hafter]; simp

end Tdma

end SlimeReceiver
