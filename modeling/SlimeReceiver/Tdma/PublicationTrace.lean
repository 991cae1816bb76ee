import SlimeReceiver.Tdma.LayoutChange

/-! # When and how publications happen

* **`PublicationLaw`** — what a publication must satisfy given the history before it.
* **`RecalculateCall`** — one call of `tdma_recalculate`, with whatever the radio interrupt and the
  console do between and around its passes.
* **`tdma_publication_trace`** — every run obeys the law, every publication with members advances
  the epoch by one, and a call makes at most two passes and, unless it publishes, leaves the layout
  alone. -/

namespace SlimeReceiver

namespace Tdma

/-! ## The law of the trace -/

/-- What an event must satisfy after the events `earlier`: an unforced publication keeps its
distance from all earlier ones and waits for the deadline of the membership it publishes. -/
def PublicationLaw (earlier : List TdmaEvent) : TdmaEvent → Prop
  | .published p => p.forced = false →
      (∀ q, TdmaEvent.published q ∈ earlier → q.time + 1000 ≤ p.time) ∧
      (p.maskChanged = false → p.ladderStep = true → p.testAllLayout = false →
        ∀ q, TdmaEvent.published q ∈ earlier → q.time + 15000 ≤ p.time) ∧
      (p.maskChanged = true → p.deadlineArmed = true →
        0 ≤ signedDistance (stamp p.time) p.deadlineMs)
  | _ => True

/-- The history knows no publication later than the one on record. -/
def RecordsPublications (trace : List TdmaEvent) (t : Tdma) : Prop :=
  ∀ q, TdmaEvent.published q ∈ trace →
    t.layout.lastReconfigValid = true ∧ q.time ≤ t.layout.lastReconfigTime

section Law

variable {trace es : List TdmaEvent} {t t' d : Tdma} {op : TdmaOp} {forced : Bool}
  {modes : RecalculateModes}

/-- A pass that need not wait keeps the minimum spacing from the publication on record. -/
theorem spacing_of_not_mustWait {testAllLayout : Bool} (hwait : d.mustWait testAllLayout = false)
    (hvalid : d.layout.lastReconfigValid = true) :
    d.layout.lastReconfigTime + d.minReconfigMs testAllLayout ≤ d.uptime := by
  simp only [mustWait, hvalid, Bool.or_eq_false_iff, Bool.true_and, decide_eq_false_iff_not] at hwait
  omega

/-- A pass that need not wait publishes no membership before its deadline. -/
theorem deadline_of_not_mustWait {testAllLayout : Bool} (hwait : d.mustWait testAllLayout = false)
    (hchanged : d.maskChanged = true) (harmed : d.shadow.membershipDeadlineArmed = true) :
    0 ≤ signedDistance (stamp d.uptime) d.shadow.membershipDeadlineMs := by
  simp only [mustWait, hchanged, harmed, Bool.or_eq_false_iff, Bool.true_and,
    decide_eq_false_iff_not, not_lt] at hwait
  exact hwait.1

theorem reconfigMin_le_minReconfigMs (testAllLayout : Bool) (d : Tdma) :
    1000 ≤ d.minReconfigMs testAllLayout := by
  unfold minReconfigMs
  split
  · exact le_rfl
  · decide

/-- A pure ladder step has the long spacing. -/
theorem minReconfigMs_ladder (hsame : d.maskChanged = false) (hstep : d.ladderStep = true) :
    d.minReconfigMs false = 15000 := by
  simp [minReconfigMs, hsame, hstep, tdmaLossReconfigMinMs]

/-- The publication of a pass obeys the law after every history on record. -/
theorem publicationLaw_of_ready (hready : forced = true ∨ d.mustWait modes.testAllEnabled = false)
    (hrecords : RecordsPublications trace d) :
    PublicationLaw trace (.published (d.publication forced modes)) := by
  intro hunforced
  have hwait : d.mustWait modes.testAllEnabled = false := by
    rcases hready with hforced | hwait
    · rw [show forced = false from hunforced] at hforced
      exact absurd hforced Bool.false_ne_true
    · exact hwait
  refine ⟨fun q hq => ?_, fun hsame hstep htest q hq => ?_, fun hchanged harmed => ?_⟩
  · obtain ⟨hvalid, hlast⟩ := hrecords q hq
    have hspacing := spacing_of_not_mustWait hwait hvalid
    have hmin := reconfigMin_le_minReconfigMs modes.testAllEnabled d
    change q.time + 1000 ≤ d.uptime
    omega
  · obtain ⟨hvalid, hlast⟩ := hrecords q hq
    have hspacing := spacing_of_not_mustWait hwait hvalid
    rw [show modes.testAllEnabled = false from htest, minReconfigMs_ladder hsame hstep] at hspacing
    change q.time + 15000 ≤ d.uptime
    omega
  · exact deadline_of_not_mustWait hwait hchanged harmed

/-- Events other than publications obey the law anywhere. -/
theorem publicationLaw_of_not_published (hnone : ∀ p, TdmaEvent.published p ∉ es) (h : List TdmaEvent)
    (e : TdmaEvent) (he : e ∈ es) : PublicationLaw h e := by
  cases e with
  | published p => exact absurd he (hnone p)
  | _ => trivial

theorem RecordsPublications.of_layout (h : RecordsPublications trace t)
    (hvalid : t'.layout.lastReconfigValid = t.layout.lastReconfigValid)
    (htime : t'.layout.lastReconfigTime = t.layout.lastReconfigTime)
    (hnone : ∀ p, TdmaEvent.published p ∉ es) : RecordsPublications (trace ++ es) t' := by
  intro q hq
  rcases List.mem_append.mp hq with hq | hq
  · rw [hvalid, htime]
    exact h q hq
  · exact absurd hq (hnone q)

/-- The invariant that carries the law through a run. -/
structure PublicationHistory (trace : List TdmaEvent) (t : Tdma) : Prop where
  membership : MembershipInv t
  notFuture : t.layout.lastReconfigTime ≤ t.uptime
  records : RecordsPublications trace t
  law : EachAfter PublicationLaw trace

theorem PublicationHistory.step (h : PublicationHistory trace t)
    (hstep : tdmaStep t op = some (t', es)) : PublicationHistory (trace ++ es) t' := by
  have hclock := uptime_le hstep
  have hmembership := h.membership.step hstep
  have htime := h.notFuture
  cases layoutChange h.membership hstep with
  | keep hlayout hnone =>
    refine ⟨hmembership, by rw [hlayout]; omega, ?_, ?_⟩
    · exact h.records.of_layout (by rw [hlayout]) (by rw [hlayout]) hnone
    · exact h.law.append (publicationLaw_of_not_published hnone)
  | empty _ _ _ _ _ hlayout hnone =>
    refine ⟨hmembership, by rw [hlayout]; exact htime.trans hclock, ?_, ?_⟩
    · exact h.records.of_layout (by rw [hlayout]) (by rw [hlayout]) hnone
    · exact h.law.append (publicationLaw_of_not_published hnone)
  | reset _ _ hlayout hnone =>
    refine ⟨hmembership, by rw [hlayout]; exact htime.trans hclock, ?_, ?_⟩
    · exact h.records.of_layout (by rw [hlayout, dropSlots]) (by rw [hlayout, dropSlots]) hnone
    · exact h.law.append (publicationLaw_of_not_published hnone)
  | publish forced diagnosticsReset modes d _ _ hd _ _ hready _ hafter hevents =>
    obtain ⟨before, rfl, hnone⟩ := hevents
    have hlayout : d.layout = t.layout := by rw [hd, decided_layout]
    have huptime : d.uptime = t.uptime := by rw [hd, decided_uptime]
    have hrecords : RecordsPublications (trace ++ before) d :=
      h.records.of_layout (by rw [hlayout]) (by rw [hlayout]) hnone
    rw [← List.append_assoc]
    refine ⟨hmembership, by rw [hafter]; simp, ?_, ?_⟩
    · intro q hq
      rw [hafter]
      simp only [publish_layout, true_and]
      rcases List.mem_append.mp hq with hq | hq
      · have hlast := (hrecords q hq).2
        rw [hlayout] at hlast
        omega
      · obtain rfl : q = d.publication forced modes := by simpa using hq
        exact le_rfl
    · rw [eachAfter_snoc]
      exact ⟨h.law.append (publicationLaw_of_not_published hnone),
        publicationLaw_of_ready hready hrecords⟩

end Law

/-! ## One call of `tdma_recalculate` -/

/-- The number of passes a step makes. -/
def passesOf : TdmaOp → ℕ
  | .pass _ => 1
  | _ => 0

/-- `RecalculateCall t passes es t'`: a call that starts in `t` has made `passes` passes and is in
`t'`; between them other contexts took the steps that are free while the roster lock is held. -/
inductive RecalculateCall (t : Tdma) : ℕ → List TdmaEvent → Tdma → Prop
  | start (forced : Bool) : t.storeTask = .recalculate forced false → RecalculateCall t 0 [] t
  | step {passes : ℕ} {es es' : List TdmaEvent} {t₁ t₂ : Tdma} {op : TdmaOp} {forced again : Bool} :
      RecalculateCall t passes es t₁ → t₁.storeTask = .recalculate forced again →
        tdmaStep t₁ op = some (t₂, es') → RecalculateCall t (passes + passesOf op) (es ++ es') t₂

/-- The layouts agree on all a publication sets, apart from the width of an empty layout. -/
structure SameLayout (l l' : Layout) : Prop where
  words : l'.tdmaConfigPacked = l.tdmaConfigPacked
  active : l'.activeMask = l.activeMask
  epoch : l'.configEpoch = l.configEpoch
  time : l'.lastReconfigTime = l.lastReconfigTime
  width : l.activeMask ≠ 0#32 → l'.dynamicSlotTicks = l.dynamicSlotTicks

theorem SameLayout.trans {l l' l'' : Layout} (h : SameLayout l l') (h' : SameLayout l' l'') :
    SameLayout l l'' where
  words := h'.words.trans h.words
  active := h'.active.trans h.active
  epoch := h'.epoch.trans h.epoch
  time := h'.time.trans h.time
  width hactive := (h'.width (h.active ▸ hactive)).trans (h.width hactive)

/-- While a recalculation is under way, only its own pass changes the lock, and a second pass is
the last. -/
theorem storeTask_of_call {t t' : Tdma} {op : TdmaOp} {es : List TdmaEvent} {forced again : Bool}
    (htask : t.storeTask = .recalculate forced again) (hstep : tdmaStep t op = some (t', es)) :
    passesOf op = 0 ∧ t'.storeTask = t.storeTask ∨
      passesOf op = 1 ∧ (t'.storeTask = .idle ∨
        again = false ∧ t'.storeTask = .recalculate forced true) := by
  cases tdmaStep_rel hstep with
  | readClock hidle | callRecalculate hidle | lossTick _ hidle | addPair _ _ _ hidle
  | popPair _ hidle | clear _ hidle | restoreStore _ _ _ hidle | update _ hidle =>
    rw [htask] at hidle
    cases hidle
  | advance | autoLossInvalidate | resetLossStats => exact .inl ⟨rfl, rfl⟩
  | observe => exact .inl ⟨rfl, by simp⟩
  | stutter _ hnopass =>
    refine .inl ⟨?_, rfl⟩
    cases op with
    | pass modes => exact absurd rfl (hnopass modes)
    | _ => rfl
  | pass forced' again' modes htask' =>
    rw [htask] at htask'
    cases htask'
    refine .inr ⟨rfl, ?_⟩
    have hresult := recalculatePass_result forced again modes t
    generalize t.recalculatePass forced again modes = r at hresult ⊢
    cases hresult with
    | again _ _ _ hfirst => exact .inr ⟨hfirst, rfl⟩
    | _ => exact .inl rfl

/-- A call makes at most two passes. -/
theorem RecalculateCall.passes_le {t t' : Tdma} {passes : ℕ} {es : List TdmaEvent}
    (h : RecalculateCall t passes es t') :
    (∃ forced, t'.storeTask = .recalculate forced false ∧ passes = 0) ∨
      (∃ forced, t'.storeTask = .recalculate forced true ∧ passes = 1) ∨
        t'.storeTask = .idle ∧ passes ≤ 2 := by
  induction h with
  | start forced htask => exact .inl ⟨forced, htask, rfl⟩
  | step _ htask hstep ih =>
    rcases storeTask_of_call htask hstep with ⟨hnopass, hsame⟩ | ⟨hpass, hidle | ⟨hfirst, hagain⟩⟩
    · rw [hnopass, hsame]
      exact ih
    · rw [hpass]
      refine .inr (.inr ⟨hidle, ?_⟩)
      rcases ih with ⟨_, _, hcount⟩ | ⟨_, _, hcount⟩ | ⟨hdone, _⟩
      · omega
      · omega
      · rw [htask] at hdone
        cases hdone
    · rw [hpass]
      refine .inr (.inl ⟨_, hagain, ?_⟩)
      rcases ih with ⟨_, _, hcount⟩ | ⟨_, hsecond, _⟩ | ⟨hdone, _⟩
      · omega
      · rw [htask, hfirst] at hsecond
        cases hsecond
      · rw [htask] at hdone
        cases hdone

/-- A call that has not published has left the layout alone. -/
theorem RecalculateCall.sameLayout {t t' : Tdma} {passes : ℕ} {es : List TdmaEvent}
    (h : RecalculateCall t passes es t') (hinv : MembershipInv t)
    (hnone : ∀ p, TdmaEvent.published p ∉ es) :
    MembershipInv t' ∧ SameLayout t.layout t'.layout := by
  induction h with
  | start => exact ⟨hinv, rfl, rfl, rfl, rfl, fun _ => rfl⟩
  | step _ htask hstep ih =>
    obtain ⟨hmembership, hbefore⟩ := ih fun p hp => hnone p (List.mem_append_left _ hp)
    refine ⟨hmembership.step hstep, hbefore.trans ?_⟩
    cases layoutChange hmembership hstep with
    | keep hlayout => rw [hlayout]; exact ⟨rfl, rfl, rfl, rfl, fun _ => rfl⟩
    | empty _ _ _ _ hempty hlayout =>
      rw [hlayout]
      exact ⟨rfl, rfl, rfl, rfl, fun hactive => absurd hempty hactive⟩
    | reset _ hidle =>
      rw [htask] at hidle
      cases hidle
    | publish _ _ _ _ _ _ _ _ _ _ _ _ hevents =>
      obtain ⟨before, rfl, -⟩ := hevents
      exact absurd (List.mem_append_right _ (List.mem_append_right _ (List.mem_singleton_self _)))
        (hnone _)

/-- A publication with members advances the epoch by one. -/
theorem epoch_of_published {t t' : Tdma} {op : TdmaOp} {es : List TdmaEvent} {p : Publication}
    (hinv : MembershipInv t) (hstep : tdmaStep t op = some (t', es))
    (hp : TdmaEvent.published p ∈ es) (hmembers : 0 < p.members) :
    t'.layout.configEpoch = t.layout.configEpoch + 1 := by
  cases layoutChange hinv hstep with
  | keep _ hnone => exact absurd hp (hnone p)
  | empty _ _ _ _ _ _ hnone => exact absurd hp (hnone p)
  | reset _ _ _ hnone => exact absurd hp (hnone p)
  | publish forced again modes d _ _ hd _ _ _ _ hafter hevents =>
    obtain ⟨before, rfl, hnone⟩ := hevents
    have hlayout : d.layout = t.layout := by rw [hd, decided_layout]
    rcases List.mem_append.mp hp with hp | hp
    · exact absurd hp (hnone p)
    · obtain rfl : p = d.publication forced modes := by simpa using hp
      have hcount : d.activeCount ≠ 0 := hmembers.ne'
      rw [hafter]
      simp only [publish_layout]
      rw [if_neg hcount, hlayout]

/-- **Publication trace.** Every run obeys `PublicationLaw`; a publication with members advances
the epoch by one modulo 256; and every call of `tdma_recalculate` makes at most two passes and
leaves the layout alone unless it publishes. -/
theorem tdma_publication_trace :
    (∀ trace t, tdmaSystem.Run trace t → EachAfter PublicationLaw trace) ∧
    (∀ t op t' es p, tdmaSystem.Reachable t → tdmaStep t op = some (t', es) →
      TdmaEvent.published p ∈ es → 0 < p.members →
        t'.layout.configEpoch = t.layout.configEpoch + 1) ∧
    (∀ t passes es t', tdmaSystem.Reachable t → RecalculateCall t passes es t' →
      passes ≤ 2 ∧ ((∀ p, TdmaEvent.published p ∉ es) → SameLayout t.layout t'.layout)) := by
  refine ⟨fun trace t hrun => ?_, fun t op t' es p hreach hstep hp hmembers => ?_,
    fun t passes es t' hreach hcall => ⟨?_, fun hnone => ?_⟩⟩
  · refine (hrun.history_invariant (P := PublicationHistory) ?_ ?_).law
    · exact ⟨membershipInv_init, le_rfl, fun q hq => absurd hq List.not_mem_nil, eachAfter_nil⟩
    · exact fun _ _ _ _ _ hs _ hstep => hs.step hstep
  · exact epoch_of_published (membership_invariant hreach) hstep hp hmembers
  · rcases hcall.passes_le with ⟨_, _, hcount⟩ | ⟨_, _, hcount⟩ | ⟨_, hcount⟩ <;> omega
  · exact (hcall.sameLayout (membership_invariant hreach) hnone).2

/-- In the run `twoHeard` the call makes its second pass, which publishes with the next epoch. -/
theorem tdma_publication_trace_twoHeard : ∃ trace t t' es, tdmaSystem.Run trace t ∧
    tdmaStep t (.pass ⟨false, false⟩) = some (t', es) ∧
      EachAfter PublicationLaw (trace ++ es) ∧ t'.layout.configEpoch = t.layout.configEpoch + 1 ∧
      ∃ t₀ passes es', RecalculateCall t₀ passes es' t' ∧ passes = 2 ∧ passes ≤ 2 := by
  obtain ⟨trace, t₀, hrun, htest⟩ := tdmaSystem.exists_run_of_replay (twoHeard.take 5)
    (fun _ (t₀ : Tdma) => decide (t₀.storeTask = .recalculate false false) &&
      (tdmaStep t₀ (.pass ⟨false, false⟩)).any fun r : Tdma × List TdmaEvent =>
        decide (r.1.storeTask = .recalculate false true) &&
          (tdmaStep r.1 (.pass ⟨false, false⟩)).any fun r' : Tdma × List TdmaEvent =>
            decide (TdmaEvent.published twoHeardPublication ∈ r'.2)) (by decide +kernel)
  simp only [Bool.and_eq_true, decide_eq_true_eq, Option.any_eq_true] at htest
  obtain ⟨hcall, ⟨t, es⟩, hfirst, hsecond, ⟨t', es'⟩, hlast, hp⟩ := htest
  have hreach : tdmaSystem.Run (trace ++ es) t := .snoc hrun trivial hfirst
  have htwo := RecalculateCall.step (.step (.start false hcall) hcall hfirst) hsecond hlast
  refine ⟨trace ++ es, t, t', es', hreach, hlast, ?_, ?_, t₀, _, _, htwo, rfl, ?_⟩
  · exact tdma_publication_trace.1 _ t' (.snoc hreach trivial hlast)
  · exact tdma_publication_trace.2.1 t _ t' es' _ ⟨_, hreach⟩ hlast hp (by decide)
  · exact (tdma_publication_trace.2.2 t₀ _ _ t' ⟨_, hrun⟩ htwo).1

end Tdma

end SlimeReceiver
