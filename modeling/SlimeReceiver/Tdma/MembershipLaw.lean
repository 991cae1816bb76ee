import SlimeReceiver.Tdma.Membership

/-! # Who a merge keeps and who it removes

Ages are differences of 32-bit readings; the law is about the uptimes at which things happened.

* **`lastObserved`**, **`lastReading`** — the latest observation of a tracker and the clock reading
  of the latest merge, read off the history.
* **`MergesWithin bound`** — no merge runs more than `bound` after the reading of the one before.
* **`Recorded`** — evidence bits and timestamps agree with the history.
* **`tdma_membership_law`** — desired trackers have evidence, and with merges close enough together
  a merge removes and keeps trackers by the true age of their evidence. -/

namespace SlimeReceiver

open Function (update)

namespace Tdma

/-! ## Reading the history -/

/-- The latest observation of tracker `j` since its slot was last reset, given the one so far. -/
def observeEvent (j : ℕ) (last : Option ℕ) : TdmaEvent → Option ℕ
  | .observed i time => if i = j then some time else last
  | .forgotten i => if i = j then none else last
  | _ => last

/-- When tracker `j` was last observed since its slot was last reset. -/
def lastObserved (j : ℕ) (trace : List TdmaEvent) : Option ℕ := trace.foldl (observeEvent j) none

/-- The clock reading of the latest merge, given the one so far. -/
def readingEvent (last : ℕ) : TdmaEvent → ℕ
  | .merged readAt _ => readAt
  | _ => last

/-- The clock reading of the latest merge; the reset of the receiver counts as reading `0`. -/
def lastReading (trace : List TdmaEvent) : ℕ := trace.foldl readingEvent 0

/-- Every merge runs at most `bound` milliseconds after the clock reading of the one before. -/
def MergesWithin (bound : ℕ) : List TdmaEvent → Prop :=
  EachAfter fun earlier e => ∀ readAt ranAt, e = .merged readAt ranAt →
    ranAt ≤ lastReading earlier + bound

/-- Events about evidence and merges. -/
def OfEvidence : TdmaEvent → Prop
  | .observed _ _ | .forgotten _ | .merged _ _ => True
  | _ => False

section Histories

variable {trace es : List TdmaEvent}

theorem lastObserved_append (j : ℕ) (trace es : List TdmaEvent) :
    lastObserved j (trace ++ es) = es.foldl (observeEvent j) (lastObserved j trace) :=
  List.foldl_append

theorem lastReading_append (trace es : List TdmaEvent) :
    lastReading (trace ++ es) = es.foldl readingEvent (lastReading trace) := List.foldl_append

/-- Events that are not about evidence leave what the history says about it. -/
theorem lastObserved_of_quiet (hquiet : ∀ e ∈ es, ¬OfEvidence e) (j : ℕ) :
    lastObserved j (trace ++ es) = lastObserved j trace := by
  rw [lastObserved_append]
  generalize lastObserved j trace = last
  induction es with
  | nil => rfl
  | cons e es ih =>
    have he : observeEvent j last e = last := by
      have hother := hquiet e List.mem_cons_self
      cases e with
      | observed | forgotten => exact absurd trivial hother
      | _ => rfl
    rw [List.foldl_cons, he]
    exact ih fun e' he' => hquiet e' (List.mem_cons_of_mem _ he')

theorem lastReading_of_not_merged (hnone : ∀ readAt ranAt, TdmaEvent.merged readAt ranAt ∉ es) :
    lastReading (trace ++ es) = lastReading trace := by
  rw [lastReading_append]
  generalize lastReading trace = last
  induction es with
  | nil => rfl
  | cons e es ih =>
    have he : readingEvent last e = last := by
      cases e with
      | merged readAt ranAt => exact absurd List.mem_cons_self (hnone readAt ranAt)
      | _ => rfl
    rw [List.foldl_cons, he]
    exact ih fun readAt ranAt hmem => hnone readAt ranAt (List.mem_cons_of_mem _ hmem)

theorem not_merged_of_quiet (hquiet : ∀ e ∈ es, ¬OfEvidence e) (readAt ranAt : ℕ) :
    TdmaEvent.merged readAt ranAt ∉ es := fun hmem => hquiet _ hmem trivial

end Histories

/-- A pass reports its merge first and then nothing about evidence. -/
theorem passEvents_split (forced diagnosticsReset : Bool) (modes : RecalculateModes) (t : Tdma) :
    ∃ rest, t.passEvents forced diagnosticsReset modes =
        (if t.needsMerge forced diagnosticsReset then [TdmaEvent.merged t.uptime t.uptime] else []) ++ rest ∧
      ∀ e ∈ rest, ¬OfEvidence e := by
  refine ⟨_, List.append_assoc _ _ _, fun e he => ?_⟩
  rcases List.mem_append.mp he with he | he
  · split_ifs at he <;> simp_all [OfEvidence]
  · split_ifs at he <;> simp_all [OfEvidence]

/-! ## Evidence and history agree -/

/-- Every evidence bit goes back to the latest observation of its tracker, whose stamp is kept and
which is recent as of the clock reading `reading`. -/
def Recorded (trace : List TdmaEvent) (reading : ℕ) (t : Tdma) : Prop :=
  ∀ j, hasBit t.shadow.liveEvidenceMask j = true → ∃ o, lastObserved j trace = some o ∧
    t.shadow.lastSeenMs j = stamp o ∧ o ≤ t.uptime ∧ reading < o + 15000

/-- The bound under which signed 32-bit ages of recorded evidence are true ages. -/
def mergeGapMs : ℕ := 2 ^ 31 - 15000

/-- Within half the range of the clock the age is the true one; evidence from after the reading
has age `0`. -/
theorem shadowAgeMs_stamp {readAt o : ℕ} (hlow : o ≤ readAt + 2 ^ 31) (hhigh : readAt < o + 2 ^ 31) :
    shadowAgeMs true (stamp readAt) (stamp o) = readAt - o := by
  rw [shadowAgeMs, if_pos rfl, signedDistance_stamp (by omega) (by omega)]
  omega

section Merge

variable {trace : List TdmaEvent} {t : Tdma} {reading readAt : ℕ}

/-- What a merge sees of a tracker with evidence. -/
theorem Recorded.age (h : Recorded trace reading t) (hread : reading ≤ readAt)
    (hran : readAt ≤ t.uptime) (hgap : t.uptime ≤ reading + mergeGapMs) {j : ℕ}
    (hlive : hasBit t.shadow.liveEvidenceMask j = true) :
    ∃ o, lastObserved j trace = some o ∧ t.shadow.lastSeenMs j = stamp o ∧ o ≤ t.uptime ∧
      shadowAgeMs true (stamp readAt) (t.shadow.lastSeenMs j) = readAt - o := by
  obtain ⟨o, hlast, hstamp, hpast, hrecent⟩ := h j hlive
  refine ⟨o, hlast, hstamp, hpast, ?_⟩
  unfold mergeGapMs at hgap
  rw [hstamp]
  exact shadowAgeMs_stamp (by omega) (by omega)

/-- A merge keeps the record and makes it recent as of its own reading. -/
theorem Recorded.merged (hinv : MembershipInv t) (h : Recorded trace reading t)
    (hread : reading ≤ readAt) (hran : readAt ≤ t.uptime)
    (hgap : t.uptime ≤ reading + mergeGapMs) : Recorded trace readAt (t.merged (stamp readAt)) := by
  intro j hj
  rw [hasBit_merged_liveEvidenceMask] at hj
  split at hj
  case isFalse hunstored =>
    exact absurd (hinv.core.live_member j hj) hunstored
  case isTrue hstored =>
    rw [merged_lastSeenMs, if_pos hstored]
    have hverdict := verdictAt_verdict (stamp readAt) t j
    generalize t.verdictAt (stamp readAt) j = w at hverdict hj ⊢
    have hage := fun hlive => h.age hread hran hgap (j := j) hlive
    cases hverdict with
    | unpublishedLeaves | graceLeaves | stale => exact absurd hj Bool.false_ne_true
    | stays pendingLeave hdesired hfresh hkeep =>
      obtain ⟨o, hlast, hstamp, hpast, hold⟩ := hage hj
      have hlt := hkeep hj
      rw [show hasBit t.shadow.liveEvidenceMask j = true from hj] at hlt
      change shadowAgeMs true (stamp readAt) (t.shadow.lastSeenMs j) < _ at hlt
      rw [hold, tdmaShadowLeaveGraceMs] at hlt
      exact ⟨o, hlast, hstamp, hpast, by omega⟩
    | joins hdesired hevidence hfresh =>
      obtain ⟨o, hlast, hstamp, hpast, hold⟩ := hage hevidence
      rw [hevidence] at hfresh
      change shadowAgeMs true (stamp readAt) (t.shadow.lastSeenMs j) < _ at hfresh
      rw [hold, tdmaShadowFreshMs] at hfresh
      exact ⟨o, hlast, hstamp, hpast, by omega⟩
    | absent _ hevidence =>
      rw [show hasBit t.shadow.liveEvidenceMask j = true from hj] at hevidence
      cases hevidence

end Merge

/-! ## The record along a run -/

section Record

variable {trace : List TdmaEvent} {t t' : Tdma} {reading : ℕ}

/-- The record reads only the evidence, and time may pass. -/
theorem Recorded.frame {trace' : List TdmaEvent} (h : Recorded trace reading t)
    (hlast : ∀ j, lastObserved j trace' = lastObserved j trace)
    (hlive : t'.shadow.liveEvidenceMask = t.shadow.liveEvidenceMask)
    (hseen : t'.shadow.lastSeenMs = t.shadow.lastSeenMs) (htime : t.uptime ≤ t'.uptime) :
    Recorded trace' reading t' := by
  intro j hj
  rw [hlive] at hj
  obtain ⟨o, ho, hstamp, hpast, hrecent⟩ := h j hj
  exact ⟨o, by rw [hlast, ho], by rw [hseen, hstamp], hpast.trans htime, hrecent⟩

theorem Recorded.observe (h : Recorded trace reading t) (hreading : reading ≤ t.uptime)
    {trackerId : ℕ} (evidence : ShadowEvidence) (hid : trackerId < t.roster.storedTrackers) :
    Recorded (trace ++ [TdmaEvent.observed trackerId t.uptime]) reading
      (t.tdmaShadowObserve trackerId evidence) := by
  intro j hj
  rw [lastObserved_append, tdmaShadowObserve_lastSeenMs evidence hid, tdmaShadowObserve_uptime]
  simp only [List.foldl_cons, List.foldl_nil, observeEvent]
  rcases eq_or_ne trackerId j with rfl | hne
  · exact ⟨t.uptime, if_pos rfl, Function.update_self _ _ _, le_rfl, by omega⟩
  · rw [tdmaShadowObserve_liveEvidenceMask evidence hid, hasBit_setBit, decide_eq_false hne,
      Bool.and_false, Bool.or_false] at hj
    rw [if_neg hne, Function.update_of_ne hne.symm]
    exact h j hj

theorem Recorded.slotReset (h : Recorded trace reading t) {id : ℕ} (hid : id < maxTrackers) :
    Recorded (trace ++ [TdmaEvent.forgotten id]) reading (t.trackerSlotReset id) := by
  intro j hj
  have hshadow := trackerSlotReset_shadow hid t
  rw [hshadow] at hj ⊢
  simp only [hasBit_clearBit, Bool.and_eq_true, Bool.not_eq_true', decide_eq_false_iff_not] at hj
  rw [lastObserved_append, trackerSlotReset_uptime]
  simp only [List.foldl_cons, List.foldl_nil, observeEvent]
  rw [if_neg hj.2, Function.update_of_ne (Ne.symm hj.2)]
  exact h j hj.1

theorem Recorded.clear (h : Recorded trace reading t) :
    Recorded (trace ++ (List.range maxTrackers).map .forgotten) reading t.cleared := by
  have hloop := forBelow_invariant (n := maxTrackers)
    (P := fun n s => Recorded (trace ++ (List.range n).map .forgotten) reading s)
    (s := { t with roster := { t.roster with
      storedTrackers := 0, storedTrackerAddr := fun _ => 0, stored_le := Nat.zero_le _ } })
    (h.frame (fun j => by simp) rfl rfl le_rfl) fun n s hn hs => by
      rw [List.range_succ, List.map_append, ← List.append_assoc]
      exact Recorded.slotReset hs hn
  exact hloop.frame (fun _ => rfl) rfl rfl le_rfl

/-- The evidence a pass leaves is that of its merge, as is the membership it desires. -/
theorem recalculatePass_shadow (forced diagnosticsReset : Bool) (modes : RecalculateModes)
    (t : Tdma) :
    ((t.recalculatePass forced diagnosticsReset modes).1.shadow.desiredMask =
        (t.resampled forced diagnosticsReset).shadow.desiredMask ∧
      (t.recalculatePass forced diagnosticsReset modes).1.shadow.liveEvidenceMask =
        (t.resampled forced diagnosticsReset).shadow.liveEvidenceMask) ∧
      (t.recalculatePass forced diagnosticsReset modes).1.shadow.lastSeenMs =
        (t.resampled forced diagnosticsReset).shadow.lastSeenMs ∧
      (t.recalculatePass forced diagnosticsReset modes).1.uptime = t.uptime := by
  have hresult := recalculatePass_result forced diagnosticsReset modes t
  have hshadow := decided_shadow forced diagnosticsReset modes t
  have huptime := decided_uptime forced diagnosticsReset modes t
  generalize t.recalculatePass forced diagnosticsReset modes = r at hresult ⊢
  generalize t.decided forced diagnosticsReset modes = d at hresult hshadow huptime
  rw [← hshadow, ← huptime]
  cases hresult <;> simp [returnEmpty, acknowledgeLevel]

/-- What a run with merges close enough together keeps. -/
structure EvidenceHistory (trace : List TdmaEvent) (t : Tdma) : Prop where
  membership : MembershipInv t
  recorded : Recorded trace (lastReading trace) t
  reading_le : lastReading trace ≤ t.uptime
  update_reading : ∀ readAt, t.storeTask = .update readAt →
    lastReading trace ≤ readAt ∧ readAt ≤ t.uptime

/-- The gap condition at the last of some events. -/
theorem gap_of_mergesWithin {es : List TdmaEvent} {readAt ranAt bound : ℕ}
    (h : MergesWithin bound (trace ++ .merged readAt ranAt :: es)) :
    ranAt ≤ lastReading trace + bound := h trace _ es rfl readAt ranAt rfl

/-- A step that neither changes nor reports anything about evidence keeps the record. -/
theorem EvidenceHistory.quiet {es : List TdmaEvent} (h : EvidenceHistory trace t)
    (hmembership : MembershipInv t') (hquiet : ∀ e ∈ es, ¬OfEvidence e)
    (hlive : t'.shadow.liveEvidenceMask = t.shadow.liveEvidenceMask)
    (hseen : t'.shadow.lastSeenMs = t.shadow.lastSeenMs) (htime : t.uptime ≤ t'.uptime)
    (htask : ∀ readAt, t'.storeTask = .update readAt → t.storeTask = .update readAt ∨ readAt = t.uptime) :
    EvidenceHistory (trace ++ es) t' where
  membership := hmembership
  recorded := by
    rw [lastReading_of_not_merged (not_merged_of_quiet hquiet)]
    exact h.recorded.frame (lastObserved_of_quiet hquiet) hlive hseen htime
  reading_le := by
    rw [lastReading_of_not_merged (not_merged_of_quiet hquiet)]
    exact h.reading_le.trans htime
  update_reading readAt hread := by
    rw [lastReading_of_not_merged (not_merged_of_quiet hquiet)]
    rcases htask readAt hread with hwas | rfl
    · exact ⟨(h.update_reading readAt hwas).1, (h.update_reading readAt hwas).2.trans htime⟩
    · exact ⟨h.reading_le, htime⟩

/-- A step without a merge keeps the record when it agrees with its own events. -/
theorem EvidenceHistory.forget {es : List TdmaEvent} (h : EvidenceHistory trace t)
    (hmembership : MembershipInv t') (hrecorded : Recorded (trace ++ es) (lastReading trace) t')
    (hnone : ∀ readAt ranAt, TdmaEvent.merged readAt ranAt ∉ es) (htime : t.uptime ≤ t'.uptime)
    (htask : ∀ readAt, t'.storeTask ≠ .update readAt) : EvidenceHistory (trace ++ es) t' where
  membership := hmembership
  recorded := by rwa [lastReading_of_not_merged hnone]
  reading_le := by
    rw [lastReading_of_not_merged hnone]
    exact h.reading_le.trans htime
  update_reading readAt hread := absurd hread (htask readAt)

/-- A merge step keeps the record and leaves its own reading as the last one. -/
theorem EvidenceHistory.merge {es : List TdmaEvent} {readAt : ℕ} (h : EvidenceHistory trace t)
    (hgap : MergesWithin mergeGapMs (trace ++ .merged readAt t.uptime :: es))
    (hread : lastReading trace ≤ readAt) (hran : readAt ≤ t.uptime)
    (hmembership : MembershipInv t') (hquiet : ∀ e ∈ es, ¬OfEvidence e)
    (hlive : t'.shadow.liveEvidenceMask = (t.merged (stamp readAt)).shadow.liveEvidenceMask)
    (hseen : t'.shadow.lastSeenMs = (t.merged (stamp readAt)).shadow.lastSeenMs)
    (htime : t'.uptime = t.uptime) (htask : ∀ readAt, t'.storeTask ≠ .update readAt) :
    EvidenceHistory (trace ++ .merged readAt t.uptime :: es) t' := by
  have hreading : lastReading (trace ++ .merged readAt t.uptime :: es) = readAt := by
    rw [List.append_cons, lastReading_of_not_merged (not_merged_of_quiet hquiet),
      lastReading_append]
    rfl
  have hlast : ∀ j, lastObserved j (trace ++ .merged readAt t.uptime :: es) = lastObserved j trace := by
    intro j
    rw [List.append_cons, lastObserved_of_quiet hquiet, lastObserved_append]
    rfl
  have hmerged := Recorded.merged h.membership h.recorded hread hran (gap_of_mergesWithin hgap)
  refine ⟨hmembership, ?_, ?_, fun r hr => absurd hr (htask r)⟩
  · rw [hreading]
    exact hmerged.frame hlast hlive hseen htime.ge
  · rw [hreading, htime]
    exact hran

/-- **Every step keeps the record**, when its merge is close enough to the one before. -/
theorem EvidenceHistory.step {op : TdmaOp} {es : List TdmaEvent} (h : EvidenceHistory trace t)
    (hgap : MergesWithin mergeGapMs (trace ++ es)) (hstep : tdmaStep t op = some (t', es)) :
    EvidenceHistory (trace ++ es) t' := by
  have hmembership := h.membership.step hstep
  cases tdmaStep_rel hstep with
  | advance ms =>
    exact h.quiet hmembership (by simp) rfl rfl (Nat.le_add_right _ _) fun _ hread => .inl hread
  | stutter | autoLossInvalidate | restoreStore =>
    exact h.quiet hmembership (by simp) rfl rfl le_rfl fun _ hread => .inl hread
  | resetLossStats | lossTick =>
    exact h.quiet hmembership (by simp [OfEvidence]) rfl rfl le_rfl fun _ hread => .inl hread
  | readClock =>
    refine h.quiet hmembership (by simp) rfl rfl le_rfl fun readAt hread => .inr ?_
    simpa using hread.symm
  | callRecalculate => exact h.quiet hmembership (by simp) rfl rfl le_rfl fun _ hread => by cases hread
  | observe trackerId evidence hid =>
    have hrecorded := h.recorded.observe h.reading_le evidence hid
    refine ⟨hmembership, ?_, ?_, ?_⟩
    · rwa [lastReading_of_not_merged (by simp)]
    · rw [lastReading_of_not_merged (by simp), tdmaShadowObserve_uptime]
      exact h.reading_le
    · rw [lastReading_of_not_merged (by simp), tdmaShadowObserve_uptime,
        tdmaShadowObserve_storeTask]
      exact h.update_reading
  | update readAt htask =>
    obtain ⟨hread, hran⟩ := h.update_reading readAt htask
    exact h.merge hgap hread hran hmembership (by simp) rfl rfl rfl (by simp)
  | pass forced diagnosticsReset modes htask =>
    obtain ⟨rest, hevents, hrest⟩ := passEvents_split forced diagnosticsReset modes t
    obtain ⟨⟨-, hlive⟩, hseen, htime⟩ := recalculatePass_shadow forced diagnosticsReset modes t
    have hfree : ∀ readAt, taskAfter forced (t.recalculatePass forced diagnosticsReset modes).2 ≠
        .update readAt := by
      intro readAt
      unfold taskAfter
      split <;> simp
    rw [hevents] at hgap ⊢
    unfold resampled at hlive hseen
    split_ifs at hgap hlive hseen ⊢
    · exact h.merge hgap h.reading_le le_rfl hmembership hrest hlive hseen htime hfree
    · exact h.quiet hmembership hrest hlive hseen htime.ge fun _ hread => absurd hread (hfree _)
  | addPair addr written hroom htask =>
    have hreset := h.recorded.slotReset hroom
    exact h.forget hmembership (hreset.frame (fun _ => rfl) rfl rfl le_rfl) (by simp) (by simp)
      (by simp [htask])
  | popPair written htask hnonempty =>
    have hlast : t.roster.storedTrackers - 1 < maxTrackers := by
      have hle := t.roster.stored_le
      omega
    have hroster : Recorded trace (lastReading trace) { t with roster := t.withoutLast } :=
      h.recorded.frame (fun _ => rfl) rfl rfl le_rfl
    have hreset := hroster.slotReset hlast
    refine h.forget hmembership ?_ (by simp) (by simp) (fun _ hread => by cases hread)
    exact hreset.frame (fun _ => rfl) rfl rfl le_rfl
  | clear written htask =>
    refine h.forget hmembership ?_ (by simp) (cleared_uptime t).ge (fun _ hread => by cases hread)
    exact h.recorded.clear.frame (fun _ => rfl) rfl rfl le_rfl

end Record

/-! ## The law of a merge -/

/-- What a merge with clock reading `readAt` does to the membership: `t` is the state before the
step that merges, `t'` the state after it. -/
structure MergeLaw (trace : List TdmaEvent) (readAt : ℕ) (t t' : Tdma) : Prop where
  /-- No active tracker observed less than 15 s before leaves. -/
  keeps_active : ∀ j o, hasBit t.shadow.desiredMask j = true →
    hasBit t.layout.activeMask j = true → lastObserved j trace = some o → readAt < o + 15000 →
      hasBit t'.shadow.desiredMask j = true
  /-- No unpublished tracker observed less than 6 s before leaves. -/
  keeps_unpublished : ∀ j o, hasBit t.shadow.desiredMask j = true →
    hasBit t.layout.activeMask j = false → lastObserved j trace = some o → readAt < o + 6000 →
      hasBit t'.shadow.desiredMask j = true
  /-- Whoever is desired afterwards was observed less than 15 s before, or 6 s if unpublished. -/
  desired_recent : ∀ j, hasBit t'.shadow.desiredMask j = true → ∃ o, lastObserved j trace = some o ∧
    readAt < o + 15000 ∧ (hasBit t.layout.activeMask j = false → readAt < o + 6000)

section Law

variable {trace : List TdmaEvent} {t t' : Tdma} {readAt : ℕ}

/-- A tracker whose evidence is fresh enough for its standing stays desired. -/
theorem keeps_of_age (hinv : MembershipInv t) {j o : ℕ}
    (hdesired : hasBit t.shadow.desiredMask j = true)
    (hage : shadowAgeMs true (stamp readAt) (t.shadow.lastSeenMs j) = readAt - o)
    (hfresh : hasBit t.layout.activeMask j = false → readAt < o + 6000) (hgrace : readAt < o + 15000) :
    hasBit (t.merged (stamp readAt)).shadow.desiredMask j = true := by
  have hlive := hinv.core.desired_live j hdesired
  rw [hasBit_merged_desiredMask, decide_eq_true (hinv.core.desired_member j hdesired),
    Bool.true_and]
  have hverdict := verdictAt_verdict (stamp readAt) t j
  rw [hlive] at hverdict
  generalize t.verdictAt (stamp readAt) j = w at hverdict ⊢
  cases hverdict with
  | unpublishedLeaves _ hactive hold =>
    change tdmaShadowFreshMs ≤ shadowAgeMs true (stamp readAt) (t.shadow.lastSeenMs j) at hold
    have hlt := hfresh hactive
    rw [hage, tdmaShadowFreshMs] at hold
    omega
  | graceLeaves _ _ hold =>
    change tdmaShadowLeaveGraceMs ≤ shadowAgeMs true (stamp readAt) (t.shadow.lastSeenMs j) at hold
    rw [hage, tdmaShadowLeaveGraceMs] at hold
    omega
  | stays => exact hdesired
  | joins => rfl
  | stale hnot | absent hnot =>
    exact absurd (hnot.symm.trans hdesired) Bool.false_ne_true

/-- Whoever a merge desires has evidence of an age that fits its standing. -/
theorem recent_of_desired (hinv : MembershipInv t) {j : ℕ}
    (hage : hasBit t.shadow.liveEvidenceMask j = true → ∃ o, lastObserved j trace = some o ∧
      shadowAgeMs true (stamp readAt) (t.shadow.lastSeenMs j) = readAt - o)
    (hdesired : hasBit (t.merged (stamp readAt)).shadow.desiredMask j = true) :
    ∃ o, lastObserved j trace = some o ∧ readAt < o + 15000 ∧
      (hasBit t.layout.activeMask j = false → readAt < o + 6000) := by
  rw [hasBit_merged_desiredMask, Bool.and_eq_true] at hdesired
  have hdesired' := hdesired.2
  have hverdict := verdictAt_verdict (stamp readAt) t j
  generalize t.verdictAt (stamp readAt) j = w at hverdict hdesired'
  cases hverdict with
  | unpublishedLeaves | graceLeaves => exact absurd hdesired' Bool.false_ne_true
  | stale hnot | absent hnot => exact absurd (hnot.symm.trans hdesired') Bool.false_ne_true
  | stays _ hwas hfresh hgrace =>
    have hlive := hinv.core.desired_live j hwas
    obtain ⟨o, hlast, hold⟩ := hage hlive
    rw [hlive] at hfresh hgrace
    refine ⟨o, hlast, ?_, fun hactive => ?_⟩
    · have hlt : shadowAgeMs true (stamp readAt) (t.shadow.lastSeenMs j) < _ := hgrace rfl
      rw [hold, tdmaShadowLeaveGraceMs] at hlt
      omega
    · have hlt : shadowAgeMs true (stamp readAt) (t.shadow.lastSeenMs j) < _ := hfresh hactive
      rw [hold, tdmaShadowFreshMs] at hlt
      omega
  | joins _ hevidence hfresh =>
    obtain ⟨o, hlast, hold⟩ := hage hevidence
    rw [hevidence] at hfresh
    have hlt : shadowAgeMs true (stamp readAt) (t.shadow.lastSeenMs j) < _ := hfresh
    rw [hold, tdmaShadowFreshMs] at hlt
    exact ⟨o, hlast, by omega, fun _ => by omega⟩

/-- A merge close enough to the one before obeys the law. -/
theorem mergeLaw_of_recorded (hinv : MembershipInv t) (h : Recorded trace (lastReading trace) t)
    (hread : lastReading trace ≤ readAt) (hran : readAt ≤ t.uptime)
    (hgap : t.uptime ≤ lastReading trace + mergeGapMs)
    (hdesired : t'.shadow.desiredMask = (t.merged (stamp readAt)).shadow.desiredMask) :
    MergeLaw trace readAt t t' := by
  have hage : ∀ j, hasBit t.shadow.liveEvidenceMask j = true → ∃ o, lastObserved j trace = some o ∧
      shadowAgeMs true (stamp readAt) (t.shadow.lastSeenMs j) = readAt - o := by
    intro j hlive
    obtain ⟨o, hlast, -, -, hold⟩ := h.age hread hran hgap hlive
    exact ⟨o, hlast, hold⟩
  have hage' : ∀ j o, hasBit t.shadow.desiredMask j = true → lastObserved j trace = some o →
      shadowAgeMs true (stamp readAt) (t.shadow.lastSeenMs j) = readAt - o := by
    intro j o hwas hlast
    obtain ⟨o', hlast', hold⟩ := hage j (hinv.core.desired_live j hwas)
    obtain rfl : o' = o := by simpa using hlast'.symm.trans hlast
    exact hold
  constructor
  · intro j o hwas hactive hlast hrecent
    rw [hdesired]
    refine keeps_of_age hinv hwas (hage' j o hwas hlast) (fun hnot => ?_) hrecent
    exact absurd (hnot.symm.trans hactive) Bool.false_ne_true
  · intro j o hwas hactive hlast hrecent
    rw [hdesired]
    exact keeps_of_age hinv hwas (hage' j o hwas hlast) (fun _ => hrecent) (by omega)
  · intro j hafter
    rw [hdesired] at hafter
    exact recent_of_desired hinv (hage j) hafter

/-- **The step that merges obeys the law.** -/
theorem EvidenceHistory.mergeLaw {op : TdmaOp} {es : List TdmaEvent} {ranAt : ℕ}
    (h : EvidenceHistory trace t) (hgap : MergesWithin mergeGapMs (trace ++ es))
    (hstep : tdmaStep t op = some (t', es)) (hmerged : TdmaEvent.merged readAt ranAt ∈ es) :
    MergeLaw trace readAt t t' := by
  cases tdmaStep_rel hstep with
  | update readAt' htask =>
    obtain ⟨rfl, rfl⟩ : readAt = readAt' ∧ ranAt = t.uptime := by simpa using hmerged
    obtain ⟨hread, hran⟩ := h.update_reading readAt htask
    exact mergeLaw_of_recorded h.membership h.recorded hread hran (gap_of_mergesWithin hgap) rfl
  | pass forced diagnosticsReset modes htask =>
    obtain ⟨rest, hevents, hrest⟩ := passEvents_split forced diagnosticsReset modes t
    obtain ⟨⟨hdesired, -⟩, -⟩ := recalculatePass_shadow forced diagnosticsReset modes t
    rw [hevents] at hgap hmerged
    unfold resampled at hdesired
    split_ifs at hgap hmerged hdesired
    · rcases List.mem_cons.mp hmerged with heq | hin
      · obtain ⟨rfl, rfl⟩ : readAt = t.uptime ∧ ranAt = t.uptime := by simpa using heq
        exact mergeLaw_of_recorded h.membership h.recorded h.reading_le le_rfl
          (gap_of_mergesWithin hgap) hdesired
      · exact absurd hin (not_merged_of_quiet hrest _ _)
    · exact absurd hmerged (not_merged_of_quiet hrest _ _)
  | _ => simp at hmerged

end Law

/-- The record of a run whose merges are close enough together. -/
theorem evidenceHistory {trace : List TdmaEvent} {t : Tdma} (hrun : tdmaSystem.Run trace t)
    (hgap : MergesWithin mergeGapMs trace) : EvidenceHistory trace t := by
  revert hgap
  refine hrun.history_invariant (P := fun trace t =>
    MergesWithin mergeGapMs trace → EvidenceHistory trace t) (fun _ => ?_) ?_
  · exact ⟨membershipInv_init, fun j hj => by simp [tdmaSystem, Tdma.init, Shadow.init] at hj, le_rfl,
      fun readAt hread => by cases hread⟩
  · intro trace t op t' es h _ hstep hgap
    exact (h hgap.of_append).step hgap hstep

/-- **Membership law.** In every reachable state a desired tracker has its evidence bit. In every
run whose merges run at most `2 ^ 31 - 15000` ms after the reading of the merge before, a merge
keeps and removes trackers by the true age of their latest observation. -/
theorem tdma_membership_law :
    (∀ t, tdmaSystem.Reachable t → ∀ j, hasBit t.shadow.desiredMask j = true →
      hasBit t.shadow.liveEvidenceMask j = true) ∧
    (∀ trace t op t' es readAt ranAt, tdmaSystem.Run trace t → tdmaStep t op = some (t', es) →
      TdmaEvent.merged readAt ranAt ∈ es → MergesWithin (2 ^ 31 - 15000) (trace ++ es) →
        MergeLaw trace readAt t t') := by
  refine ⟨fun t hreach => (membership_invariant hreach).core.desired_live, ?_⟩
  intro trace t op t' es readAt ranAt hrun hstep hmerged hgap
  exact (evidenceHistory hrun hgap.of_append).mergeLaw hgap hstep hmerged

/-- A tracker observed at `0` joins with a merge 200 ms later. -/
theorem tdma_membership_law_joins : ∃ t t', hasBit t'.shadow.desiredMask 0 = true ∧
    hasBit t'.shadow.liveEvidenceMask 0 = true ∧ MergeLaw [.observed 0 0] 200 t t' := by
  obtain ⟨trace, t, hrun, htest⟩ := tdmaSystem.exists_run_of_replay
    [.restoreStore 1 fun i => i + 1, .observe 0 .data, .advance 200, .readClock]
    (fun trace (t : Tdma) => decide (trace = [.observed 0 0]) &&
      (tdmaStep t .update).any fun r : Tdma × List TdmaEvent =>
        decide (r.2 = [.merged 200 200]) && hasBit r.1.shadow.desiredMask 0) (by decide +kernel)
  simp only [Bool.and_eq_true, decide_eq_true_eq, Option.any_eq_true] at htest
  obtain ⟨rfl, ⟨t', es⟩, hstep, rfl, hdesired⟩ := htest
  have hgap : MergesWithin (2 ^ 31 - 15000) ([] ++ [TdmaEvent.observed 0 0] ++ [TdmaEvent.merged 200 200]) :=
    by
    refine eachAfter_snoc.mpr ⟨eachAfter_snoc.mpr ⟨eachAfter_nil, ?_⟩, ?_⟩
    · rintro _ _ ⟨⟩
    · rintro _ _ ⟨⟩
      decide
  exact ⟨t, t', hdesired, tdma_membership_law.1 t' ⟨_, hrun.snoc trivial hstep⟩ 0 hdesired,
    tdma_membership_law.2 _ t _ t' _ 200 200 hrun hstep (by simp) hgap⟩

/-- With merges `2 ^ 31` ms apart the law fails: evidence of exactly that age counts as fresh, so
a tracker heard once stays desired. -/
theorem membership_law_fails_at_half_range :
    ¬∀ trace t op t' es readAt ranAt, tdmaSystem.Run trace t → tdmaStep t op = some (t', es) →
      TdmaEvent.merged readAt ranAt ∈ es → MergesWithin (2 ^ 31) (trace ++ es) →
        MergeLaw trace readAt t t' := by
  intro hlaw
  obtain ⟨trace, t, hrun, htest⟩ := tdmaSystem.exists_run_of_replay
    [.restoreStore 1 fun i => i + 1, .observe 0 .data, .readClock, .update, .advance (2 ^ 31),
      .readClock]
    (fun trace (t : Tdma) => decide (trace = [.observed 0 0, .merged 0 0]) &&
      (tdmaStep t .update).any fun r : Tdma × List TdmaEvent =>
        decide (r.2 = [.merged (2 ^ 31) (2 ^ 31)]) && hasBit r.1.shadow.desiredMask 0)
    (by decide +kernel)
  simp only [Bool.and_eq_true, decide_eq_true_eq, Option.any_eq_true] at htest
  obtain ⟨rfl, ⟨t', es⟩, hstep, rfl, hdesired⟩ := htest
  have hgap : MergesWithin (2 ^ 31)
      (([] ++ [TdmaEvent.observed 0 0] ++ [TdmaEvent.merged 0 0]) ++ [TdmaEvent.merged (2 ^ 31) (2 ^ 31)]) := by
    refine eachAfter_snoc.mpr ⟨eachAfter_snoc.mpr ⟨eachAfter_snoc.mpr ⟨eachAfter_nil, ?_⟩, ?_⟩, ?_⟩
    · rintro _ _ ⟨⟩
    · rintro _ _ ⟨⟩
      decide
    · rintro _ _ ⟨⟩
      decide
  obtain ⟨o, hlast, hrecent, -⟩ :=
    (hlaw _ t _ t' _ (2 ^ 31) (2 ^ 31) hrun hstep (by simp) hgap).desired_recent 0 hdesired
  obtain rfl : 0 = o := by simpa [lastObserved, observeEvent] using hlast
  exact absurd hrecent (by decide)

end Tdma

end SlimeReceiver
