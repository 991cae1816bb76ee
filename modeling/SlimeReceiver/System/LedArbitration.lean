import SlimeReceiver.System.Led
import Mathlib.Tactic.Common

/-! # What the LED shows

The thread and the callers agree by the number of the selection. It is counted in 32 bits, so they agree as long as
the count does not come back to a number that one of them still holds.

* **`State.counts`**, **`Fresh`** — a step changes the selection; the new number is not held.
* **`Arbitrated`**, **`StepKept`** — the selection, the notifications and the black frames; what a step does.
* **`Inv`** — the numbers held, and where the thread is.
* **`led_arbitrated`** — every run with fresh numbers is arbitrated. -/

namespace SlimeReceiver

namespace Led

open Function (update)

/-! ## The promise -/

/-- The snapshot the thread holds. -/
def Point.snapshot : Point → Option Snapshot
  | .top => none
  | .snapped sn | .acking sn _ | .drawing sn | .finishing sn _ | .giving sn | .draining sn _ | .checking sn _
  | .waiting sn _ => some sn

/-- The generations that are compared later. -/
def State.held (s : State) : List (BitVec 32) :=
  s.activeGeneration :: s.offGeneration :: (s.point.snapshot.map (·.generation)).toList

/-- The step may change the selection. -/
def State.counts (s : State) : Input → Bool
  | .setLed pattern priority =>
    decide (selectOf (update s.patterns priority pattern) ≠ (s.currentPattern, s.currentPriority))
  | .work _ _ => match s.point with
    | .finishing _ _ => true
    | _ => false
  | .give | .poll _ => false

/-- If a step changes the selection, the next generation is not one that is held. -/
def Fresh (s : State) (i : Input) : Prop := s.counts i = true → s.generation + 1 ∉ s.held

instance (s : State) (i : Input) : Decidable (Fresh s i) := inferInstanceAs (Decidable (_ → _))

/-- What holds at any time. -/
structure Arbitrated (trace : List Event) (s : State) : Prop where
  selected : (s.currentPattern, s.currentPriority) = selectOf s.patterns
  /-- The thread waits without a timeout for a selection it has not seen only if it is about to be told. -/
  notified : ∀ sn, s.point = .waiting sn none → sn.generation ≠ s.generation → s.semaphore = true ∨ 0 < s.owed
  /-- An acknowledged black frame was applied while its selection was current. -/
  blackened : s.offGeneration = s.generation → Event.blackFrame s.epoch s.epoch true ∈ trace

/-- What a step does. -/
structure StepKept (s : State) (i : Input) (s' : State) : Prop where
  counted : s'.generation ≠ s.generation ↔
    (s'.currentPattern, s'.currentPriority) ≠ (s.currentPattern, s.currentPriority)
  /-- The thread clears only the request it has shown from its start, and only while it is selected. -/
  cleared : ∀ applied expired, i = .work applied expired → s'.patterns ≠ s.patterns →
    ∃ sn finish, s.point = .finishing sn finish ∧ s'.patterns = update s.patterns sn.priority finish ∧
      sn.epoch = s.epoch ∧ s.activeEpoch = s.epoch ∧ s.patterns sn.priority = sn.pattern
  /-- After a one-shot the selection is another. -/
  ended : ∀ applied expired sn finish, i = .work applied expired → s.point = .finishing sn finish →
    sn.epoch < s'.epoch ∧ s'.generation ≠ sn.generation

/-! ## The selection -/

/-- The selection is that of a request, unless there is none. -/
theorem selectOf_eq (patterns : ℕ → Pattern) :
    selectOf patterns = (.off, depth) ∨ (selectOf patterns).1 = patterns (selectOf patterns).2 := by
  unfold selectOf
  split
  case h_1 => exact .inr rfl
  case h_2 => exact .inl rfl

/-- What `led_select_locked` does. -/
structure Selected (pattern : Pattern) (priority : ℕ) (s s' : State) (changed : Bool) : Prop where
  patterns : s'.patterns = update s.patterns priority pattern
  selected : (s'.currentPattern, s'.currentPriority) = selectOf s'.patterns
  told : changed = true ↔
    (s'.currentPattern, s'.currentPriority) ≠ (s.currentPattern, s.currentPriority)
  generation : s'.generation = if changed then s.generation + 1 else s.generation
  epoch : s'.epoch = if changed then s.epoch + 1 else s.epoch
  rest : (s'.offGeneration, s'.offEpoch, s'.activeGeneration, s'.activeEpoch) =
    (s.offGeneration, s.offEpoch, s.activeGeneration, s.activeEpoch)

theorem selectLocked_spec (pattern : Pattern) (priority : ℕ) (s : State) :
    Selected pattern priority s (s.selectLocked pattern priority).1 (s.selectLocked pattern priority).2 := by
  unfold State.selectLocked
  by_cases hsame : selectOf (update s.patterns priority pattern) = (s.currentPattern, s.currentPriority)
  · simp only [if_pos hsame]
    exact ⟨rfl, hsame.symm, iff_of_false (by decide) (fun hne => hne rfl), rfl, rfl, rfl⟩
  · simp only [if_neg hsame]
    exact ⟨rfl, rfl, iff_of_true rfl hsame, rfl, rfl, rfl⟩

/-- The thread and its notifications are not touched. -/
theorem selectLocked_thread (pattern : Pattern) (priority : ℕ) (s : State) :
    (s.selectLocked pattern priority).1.point = s.point ∧
      (s.selectLocked pattern priority).1.semaphore = s.semaphore := by
  unfold State.selectLocked
  by_cases hsame : selectOf (update s.patterns priority pattern) = (s.currentPattern, s.currentPriority)
  · simp only [if_pos hsame]
    exact ⟨trivial, trivial⟩
  · simp only [if_neg hsame]
    exact ⟨trivial, trivial⟩

theorem succ_ne (g : BitVec 32) : g + 1 ≠ g := by bv_omega

/-- The generation is counted exactly when the selection changes. -/
theorem Selected.counted {pattern : Pattern} {priority : ℕ} {s s' : State} {changed : Bool}
    (h : Selected pattern priority s s' changed) : s'.generation ≠ s.generation ↔
      (s'.currentPattern, s'.currentPriority) ≠ (s.currentPattern, s.currentPriority) := by
  rw [← h.told, h.generation]
  cases changed with
  | true => exact iff_of_true (succ_ne _) rfl
  | false => exact iff_of_false (fun hne => hne rfl) (by decide)

/-! ## The invariant -/

/-- `g` is the generation of selection `e`, and the current one only if `e` is. -/
structure Numbered (now : Snapshot) (g : BitVec 32) (e : ℕ) : Prop where
  number : g = BitVec.ofNat 32 e
  le : e ≤ now.epoch
  current : g = now.generation → e = now.epoch

/-- The snapshot is of the selection with its number. -/
structure Snapped (now sn : Snapshot) : Prop where
  numbered : Numbered now sn.generation sn.epoch
  selection : sn.epoch = now.epoch → (sn.pattern, sn.priority) = (now.pattern, now.priority)

/-- What the thread knows where it is. -/
def Knows (trace : List Event) (s : State) : Prop :=
  match s.point with
  | .top => True
  | .snapped sn => Snapped s.now sn ∧ (s.activeGeneration = sn.generation → s.activeEpoch = sn.epoch)
  | .acking sn applied => Snapped s.now sn ∧ s.activeEpoch = sn.epoch ∧ (applied = true →
      ∃ current, Event.blackFrame sn.epoch current true ∈ trace ∧ sn.epoch ≤ current ∧ current ≤ s.epoch)
  | .drawing sn => Snapped s.now sn ∧ s.activeEpoch = sn.epoch
  | .finishing sn finish => Snapped s.now sn ∧ s.activeEpoch = sn.epoch ∧ sn.pattern.dark = false ∧ sn.pattern ≠ finish
  | .giving _ | .draining _ _ | .checking _ _ => True
  | .waiting sn _ => sn.generation ≠ s.generation → s.semaphore = true ∨ 0 < s.owed

/-- Where the thread knows nothing of the selection. -/
def Point.careless : Point → Bool
  | .top | .giving _ | .draining _ _ | .checking _ _ => true
  | .snapped _ | .acking _ _ | .drawing _ | .finishing _ _ | .waiting _ _ => false

theorem Knows.of_careless {trace : List Event} {s : State} (h : s.point.careless = true) : Knows trace s := by
  unfold Knows
  cases hpoint : s.point with
  | top | giving | draining | checking => trivial
  | snapped | acking | drawing | finishing | waiting =>
    rw [hpoint] at h
    cases h

structure Inv (trace : List Event) (s : State) : Prop where
  selected : (s.currentPattern, s.currentPriority) = selectOf s.patterns
  generation : s.generation = BitVec.ofNat 32 s.epoch
  started : 0 < s.epoch
  active : Numbered s.now s.activeGeneration s.activeEpoch
  off : Numbered s.now s.offGeneration s.offEpoch
  blackened : s.offEpoch = 0 ∨ Event.blackFrame s.offEpoch s.offEpoch true ∈ trace
  knows : Knows trace s

theorem Inv.init : Inv [] State.init where
  selected := by decide
  generation := rfl
  started := by decide
  active := ⟨rfl, by decide, fun h => absurd h (by decide)⟩
  off := ⟨rfl, by decide, fun h => absurd h (by decide)⟩
  blackened := .inl rfl
  knows := trivial

theorem Inv.arbitrated {trace : List Event} {s : State} (h : Inv trace s) : Arbitrated trace s where
  selected := h.selected
  notified := by
    intro sn hpoint
    have hknows := h.knows
    rw [Knows, hpoint] at hknows
    exact hknows
  blackened := by
    intro heq
    have hepoch : s.offEpoch = s.epoch := h.off.current heq
    rcases h.blackened with hzero | hmem
    · have hstarted := h.started
      omega
    · rw [hepoch] at hmem
      exact hmem

/-! ## A change of the selection -/

section Select

variable {pattern : Pattern} {priority : ℕ} {s s' : State} {changed : Bool} {trace : List Event}

theorem Numbered.select {g : BitVec 32} {e : ℕ} (h : Numbered s.now g e)
    (hselected : Selected pattern priority s s' changed) (hfresh : changed = true → s.generation + 1 ≠ g) :
    Numbered s'.now g e where
  number := h.number
  le := by
    show e ≤ s'.epoch
    have hle : e ≤ s.epoch := h.le
    rw [hselected.epoch]
    split
    case isTrue => omega
    case isFalse => exact hle
  current := by
    intro heq
    show e = s'.epoch
    have hgeneration : g = s'.generation := heq
    rw [hselected.epoch]
    rw [hselected.generation] at hgeneration
    cases changed with
    | true => exact absurd hgeneration.symm (hfresh rfl)
    | false => exact h.current hgeneration

theorem Snapped.select {sn : Snapshot} (h : Snapped s.now sn) (hselected : Selected pattern priority s s' changed)
    (hfresh : changed = true → s.generation + 1 ≠ sn.generation) : Snapped s'.now sn where
  numbered := h.numbered.select hselected hfresh
  selection := by
    intro heq
    show _ = (s'.currentPattern, s'.currentPriority)
    have hepoch : sn.epoch = s'.epoch := heq
    have hle : sn.epoch ≤ s.epoch := h.numbered.le
    rw [hselected.epoch] at hepoch
    cases changed with
    | true =>
      simp only [if_true] at hepoch
      omega
    | false =>
      have hsame : (s'.currentPattern, s'.currentPriority) = (s.currentPattern, s.currentPriority) :=
        not_not.mp fun hne => absurd (hselected.told.mpr hne) (by decide)
      rw [hsame]
      exact h.selection hepoch

/-- What is kept by a change of the selection, apart from where the thread is. -/
theorem Inv.select {es : List Event} (h : Inv trace s) (hselected : Selected pattern priority s s' changed)
    (hfresh : changed = true → s.generation + 1 ∉ s.held) (hknows : Knows (trace ++ es) s') :
    Inv (trace ++ es) s' := by
  have hrest := hselected.rest
  simp only [Prod.mk.injEq] at hrest
  obtain ⟨hoffGeneration, hoffEpoch, hactiveGeneration, hactiveEpoch⟩ := hrest
  refine ⟨hselected.selected, ?_, ?_, ?_, ?_, ?_, hknows⟩
  · rw [hselected.generation, hselected.epoch]
    split
    case isTrue =>
      rw [h.generation, BitVec.ofNat_add]
      rfl
    case isFalse => exact h.generation
  · rw [hselected.epoch]
    have hstarted := h.started
    split <;> omega
  · rw [hactiveGeneration, hactiveEpoch]
    exact h.active.select hselected fun htrue heq => hfresh htrue (heq ▸ List.mem_cons_self)
  · rw [hoffGeneration, hoffEpoch]
    exact h.off.select hselected fun htrue heq =>
      hfresh htrue (heq ▸ List.mem_cons_of_mem _ List.mem_cons_self)
  · rw [hoffEpoch]
    exact h.blackened.imp_right (List.mem_append_left _)

end Select

/-! ## The steps -/

section Steps

variable {s : State} {trace : List Event}

/-- What the thread knows is not lost when more happens and the selection changes to a fresh number. -/
theorem Knows.select {pattern : Pattern} {priority : ℕ} {s' : State} {changed : Bool} (es : List Event)
    (h : Knows trace s) (hselected : Selected pattern priority s s' changed) (hpoint : s'.point = s.point)
    (hfresh : changed = true → s.generation + 1 ∉ s.held)
    (hnotified : (s.semaphore = true → s'.semaphore = true) ∧
      (s'.semaphore = true ∨ 0 < s'.owed ∨ changed = false ∧ s'.owed = s.owed ∧ s'.semaphore = s.semaphore)) :
    Knows (trace ++ es) s' := by
  have hrest := hselected.rest
  simp only [Prod.mk.injEq] at hrest
  obtain ⟨-, -, hactiveGeneration, hactiveEpoch⟩ := hrest
  have hheld : ∀ sn, s.point.snapshot = some sn → changed = true → s.generation + 1 ≠ sn.generation := by
    intro sn hsn htrue heq
    refine hfresh htrue ?_
    rw [State.held, hsn, heq]
    exact List.mem_cons_of_mem _ (List.mem_cons_of_mem _ List.mem_cons_self)
  unfold Knows at h ⊢
  rw [hpoint, hactiveGeneration, hactiveEpoch]
  split at h
  case h_1 => trivial
  case h_2 sn heq => exact ⟨h.1.select hselected (hheld sn (by rw [heq]; rfl)), h.2⟩
  case h_3 sn applied heq =>
    refine ⟨h.1.select hselected (hheld sn (by rw [heq]; rfl)), h.2.1, fun happlied => ?_⟩
    obtain ⟨current, hmem, hle, hle'⟩ := h.2.2 happlied
    refine ⟨current, List.mem_append_left _ hmem, hle, ?_⟩
    rw [hselected.epoch]
    split <;> omega
  case h_4 sn heq => exact ⟨h.1.select hselected (hheld sn (by rw [heq]; rfl)), h.2⟩
  case h_5 sn finish heq => exact ⟨h.1.select hselected (hheld sn (by rw [heq]; rfl)), h.2⟩
  case h_6 => trivial
  case h_7 => trivial
  case h_8 => trivial
  case h_9 sn waitMs heq =>
    intro hne
    rcases hnotified.2 with hgiven | howed | ⟨hunchanged, howed, hsemaphore⟩
    · exact .inl hgiven
    · exact .inr howed
    · rw [hselected.generation, hunchanged] at hne
      rw [howed, hsemaphore]
      exact h hne

/-- What the thread knows is not lost when more happens and the selection stays. -/
theorem Knows.keep {s' : State} (es : List Event) (h : Knows trace s) (hpoint : s'.point = s.point)
    (hnow : s'.now = s.now)
    (hactive : (s'.activeGeneration, s'.activeEpoch) = (s.activeGeneration, s.activeEpoch))
    (hnotified : s.semaphore = true ∨ 0 < s.owed → s'.semaphore = true ∨ 0 < s'.owed) : Knows (trace ++ es) s' := by
  obtain ⟨hactiveGeneration, hactiveEpoch⟩ := Prod.mk.inj hactive
  have hgeneration : s'.generation = s.generation := congrArg Snapshot.generation hnow
  have hepoch : s'.epoch = s.epoch := congrArg Snapshot.epoch hnow
  unfold Knows at h ⊢
  rw [hpoint, hactiveGeneration, hactiveEpoch, hnow, hgeneration, hepoch]
  split at h
  case h_1 => trivial
  case h_2 => exact h
  case h_3 =>
    refine ⟨h.1, h.2.1, fun happlied => ?_⟩
    obtain ⟨current, hmem, hle⟩ := h.2.2 happlied
    exact ⟨current, List.mem_append_left _ hmem, hle⟩
  case h_4 => exact h
  case h_5 => exact h
  case h_6 => trivial
  case h_7 => trivial
  case h_8 => trivial
  case h_9 => exact fun hne => hnotified (h hne)

/-- The critical section of `set_led` is a change of the selection that is owed a notification. -/
theorem Inv.setLed (h : Inv trace s) (pattern : Pattern) (priority : ℕ)
    (hfresh : (s.selectLocked pattern priority).2 = true → s.generation + 1 ∉ s.held) :
    Inv (trace ++ (s.setLed pattern priority).2) (s.setLed pattern priority).1 := by
  have hspec := selectLocked_spec pattern priority s
  obtain ⟨hpoint, hsemaphore⟩ := selectLocked_thread pattern priority s
  have hselected : Selected pattern priority s (s.setLed pattern priority).1 (s.selectLocked pattern priority).2 :=
    ⟨hspec.patterns, hspec.selected, hspec.told, hspec.generation, hspec.epoch, hspec.rest⟩
  refine h.select hselected hfresh (h.knows.select _ hselected hpoint hfresh ⟨fun hgiven => ?_, ?_⟩)
  · exact hsemaphore.trans hgiven
  · show _ ∨ 0 < (if (s.selectLocked pattern priority).2 = true then s.owed + 1 else s.owed) ∨ _
    split
    case isTrue => exact .inr (.inl (Nat.succ_pos _))
    case isFalse hunchanged =>
      refine .inr (.inr ⟨Bool.eq_false_iff.mpr hunchanged, ?_, hsemaphore⟩)
      exact if_neg hunchanged

/-- A step that only moves the thread. -/
theorem Inv.move {s' : State} (h : Inv trace s) (es : List Event) (hsame : (s'.patterns, s'.now) = (s.patterns, s.now))
    (hnumbers : (s'.offGeneration, s'.offEpoch, s'.activeGeneration, s'.activeEpoch) =
      (s.offGeneration, s.offEpoch, s.activeGeneration, s.activeEpoch)) (hknows : Knows (trace ++ es) s') :
    Inv (trace ++ es) s' := by
  simp only [Prod.mk.injEq, State.now, Snapshot.mk.injEq] at hsame hnumbers
  obtain ⟨hpatterns, hpattern, hpriority, hgeneration, hepoch⟩ := hsame
  obtain ⟨hoffGeneration, hoffEpoch, hactiveGeneration, hactiveEpoch⟩ := hnumbers
  have hnow : s'.now = s.now := by simp only [State.now, hpattern, hpriority, hgeneration, hepoch]
  refine ⟨?_, ?_, ?_, ?_, ?_, ?_, hknows⟩
  · rw [hpattern, hpriority, hpatterns]
    exact h.selected
  · rw [hgeneration, hepoch]
    exact h.generation
  · rw [hepoch]
    exact h.started
  · rw [hnow, hactiveGeneration, hactiveEpoch]
    exact h.active
  · rw [hnow, hoffGeneration, hoffEpoch]
    exact h.off
  · rw [hoffEpoch]
    exact h.blackened.imp_right (List.mem_append_left _)

/-- The first look at a snapshot: it is shown from its start, unless it already is. -/
theorem Inv.refresh {sn : Snapshot} (applied : Bool) (h : Inv trace s) (hpoint : s.point = .snapped sn) :
    Inv (trace ++ (s.refresh sn applied).2) (s.refresh sn applied).1 := by
  have hknows := h.knows
  rw [Knows, hpoint] at hknows
  obtain ⟨hsnapped, hactive⟩ := hknows
  unfold State.refresh
  by_cases hsame : s.activeGeneration = sn.generation
  · simp only [if_pos hsame]
    exact h.move _ rfl rfl ⟨hsnapped, hactive hsame⟩
  · simp only [if_neg hsame]
    have hblackened : ∀ es : List Event, s.offEpoch = 0 ∨ Event.blackFrame s.offEpoch s.offEpoch true ∈ trace ++ es :=
      fun es => h.blackened.imp_right (List.mem_append_left _)
    split
    case isTrue =>
      refine ⟨h.selected, h.generation, h.started, hsnapped.numbered, h.off, hblackened _, hsnapped, rfl, ?_⟩
      rintro rfl
      exact ⟨s.epoch, List.mem_append_right _ (List.mem_singleton_self _), hsnapped.numbered.le, le_refl _⟩
    case isFalse =>
      exact ⟨h.selected, h.generation, h.started, hsnapped.numbered, h.off, hblackened _, hsnapped, rfl⟩

/-- Only a black frame of the current selection is acknowledged. -/
theorem Inv.acknowledge {sn : Snapshot} {applied : Bool} (h : Inv trace s) (hpoint : s.point = .acking sn applied) :
    Inv (trace ++ []) (s.acknowledge sn applied) := by
  have hknows := h.knows
  rw [Knows, hpoint] at hknows
  obtain ⟨hsnapped, hactive, hframe⟩ := hknows
  unfold State.acknowledge
  split
  case isTrue hcurrent =>
    obtain ⟨current, hmem, hle, hle'⟩ := hframe hcurrent.1
    have hepoch : sn.epoch = s.epoch := hsnapped.numbered.current hcurrent.2
    obtain rfl : current = sn.epoch := by omega
    exact ⟨h.selected, h.generation, h.started, h.active, hsnapped.numbered, .inr (List.mem_append_left _ hmem),
      hsnapped, hactive⟩
  case isFalse => exact h.move _ rfl rfl ⟨hsnapped, hactive⟩

theorem Inv.draw {sn : Snapshot} (h : Inv trace s) (hpoint : s.point = .drawing sn) :
    Inv (trace ++ (s.draw sn).2) (s.draw sn).1 := by
  have hknows := h.knows
  rw [Knows, hpoint] at hknows
  refine h.move _ rfl rfl ?_
  cases hfinish : (animate sn.pattern s.patternState).finish with
  | some finish =>
    have hpoint' : (s.draw sn).1.point = .finishing sn finish := by simp only [State.draw, hfinish]
    obtain ⟨hdark, hne, -⟩ := finish_oneshot hfinish
    unfold Knows
    rw [hpoint']
    exact ⟨hknows.1, hknows.2, hdark, hne⟩
  | none =>
    refine .of_careless ?_
    simp only [State.draw, hfinish]
    rfl

/-- The end of a one-shot changes the selection it has shown, or none. -/
theorem Inv.finishOneshot {sn : Snapshot} {finish : Pattern} (h : Inv trace s) (hfresh : s.generation + 1 ∉ s.held) :
    Inv (trace ++ []) (s.finishOneshot sn finish) := by
  unfold State.finishOneshot
  split
  case isTrue =>
    have hspec := selectLocked_spec finish sn.priority s
    have hselected : Selected finish sn.priority s
        { (s.selectLocked finish sn.priority).1 with
          point := if (s.selectLocked finish sn.priority).2 then .giving sn else .draining sn none }
        (s.selectLocked finish sn.priority).2 :=
      ⟨hspec.patterns, hspec.selected, hspec.told, hspec.generation, hspec.epoch, hspec.rest⟩
    refine h.select hselected (fun _ => hfresh) (.of_careless ?_)
    show Point.careless (if (s.selectLocked finish sn.priority).2 = true then _ else _) = true
    split <;> rfl
  case isFalse => exact h.move _ rfl rfl trivial

theorem Inv.work {applied expired : Bool} {s' : State} {es : List Event} (h : Inv trace s)
    (hfresh : Fresh s (.work applied expired)) (hstep : s.work applied expired = some (s', es)) :
    Inv (trace ++ es) s' := by
  have hcounts : ∀ sn finish, s.point = .finishing sn finish → s.generation + 1 ∉ s.held := by
    intro sn finish hpoint
    refine hfresh ?_
    simp only [State.counts, hpoint]
  unfold State.work at hstep
  split at hstep
  case h_1 =>
    obtain ⟨rfl, rfl⟩ := Prod.mk.inj (Option.some.inj hstep)
    refine h.move _ rfl rfl ⟨⟨⟨h.generation, le_refl _, fun _ => rfl⟩, fun _ => rfl⟩, h.active.current⟩
  case h_2 sn hpoint =>
    obtain ⟨rfl, rfl⟩ := Prod.mk.inj (Option.some.inj hstep)
    exact h.refresh applied hpoint
  case h_3 sn applied hpoint =>
    obtain ⟨rfl, rfl⟩ := Prod.mk.inj (Option.some.inj hstep)
    exact h.acknowledge hpoint
  case h_4 sn hpoint =>
    obtain ⟨rfl, rfl⟩ := Prod.mk.inj (Option.some.inj hstep)
    exact h.draw hpoint
  case h_5 sn finish hpoint =>
    obtain ⟨rfl, rfl⟩ := Prod.mk.inj (Option.some.inj hstep)
    exact h.finishOneshot (hcounts sn finish hpoint)
  case h_6 =>
    obtain ⟨rfl, rfl⟩ := Prod.mk.inj (Option.some.inj hstep)
    exact h.move _ rfl rfl trivial
  case h_7 =>
    obtain ⟨rfl, rfl⟩ := Prod.mk.inj (Option.some.inj hstep)
    exact h.move _ rfl rfl trivial
  case h_8 sn waitMs hpoint =>
    obtain ⟨rfl, rfl⟩ := Prod.mk.inj (Option.some.inj hstep)
    refine h.move _ rfl rfl ?_
    split
    case isTrue hsame => exact fun hne => absurd hsame hne
    case isFalse => trivial
  case h_9 =>
    split at hstep
    case isTrue =>
      obtain ⟨rfl, rfl⟩ := Prod.mk.inj (Option.some.inj hstep)
      exact h.move _ rfl rfl trivial
    case isFalse =>
      split at hstep
      case isTrue =>
        obtain ⟨rfl, rfl⟩ := Prod.mk.inj (Option.some.inj hstep)
        exact h.move _ rfl rfl trivial
      case isFalse => cases hstep

end Steps

/-! ## Runs -/

section Runs

variable {s s' : State} {i : Input} {trace es : List Event}

/-- A request without a change of the selection is not owed anything, and needs no number. -/
theorem fresh_setLed {pattern : Pattern} {priority : ℕ} (h : Fresh s (.setLed pattern priority)) :
    (s.selectLocked pattern priority).2 = true → s.generation + 1 ∉ s.held := by
  intro hchanged
  refine h (decide_eq_true fun hsame => ?_)
  rw [State.selectLocked, if_pos hsame] at hchanged
  cases hchanged

theorem Inv.step (h : Inv trace s) (hfresh : Fresh s i) (hstep : s.step i = some (s', es)) : Inv (trace ++ es) s' := by
  cases i with
  | setLed pattern priority =>
    simp only [State.step] at hstep
    split at hstep
    case isTrue =>
      have heq := Option.some.inj hstep
      obtain rfl : (s.setLed pattern priority).1 = s' := congrArg Prod.fst heq
      obtain rfl : (s.setLed pattern priority).2 = es := congrArg Prod.snd heq
      exact h.setLed pattern priority (fresh_setLed hfresh)
    case isFalse => cases hstep
  | give =>
    simp only [State.step] at hstep
    split at hstep
    case isTrue => cases hstep
    case isFalse =>
      obtain ⟨rfl, rfl⟩ := Prod.mk.inj (Option.some.inj hstep)
      exact h.move _ rfl rfl (h.knows.keep _ rfl rfl rfl fun _ => .inl rfl)
  | poll generation =>
    obtain ⟨rfl, rfl⟩ := Prod.mk.inj (Option.some.inj hstep)
    exact h.move _ rfl rfl (h.knows.keep _ rfl rfl rfl id)
  | work applied expired => exact h.work hfresh hstep

/-- A step of the thread that does not end a one-shot leaves the requests and the selection alone. -/
theorem work_now {applied expired : Bool} (hstep : s.work applied expired = some (s', es)) :
    (∃ sn finish, s.point = .finishing sn finish ∧ s' = s.finishOneshot sn finish) ∨
      (s'.patterns, s'.now) = (s.patterns, s.now) := by
  unfold State.work at hstep
  split at hstep
  case h_1 =>
    obtain ⟨rfl, rfl⟩ := Prod.mk.inj (Option.some.inj hstep)
    exact .inr rfl
  case h_2 sn hpoint =>
    obtain rfl : (s.refresh sn applied).1 = s' := congrArg Prod.fst (Option.some.inj hstep)
    refine .inr ?_
    unfold State.refresh
    split
    case isTrue => rfl
    case isFalse => split <;> rfl
  case h_3 sn applied hpoint =>
    obtain rfl : s.acknowledge sn applied = s' := congrArg Prod.fst (Option.some.inj hstep)
    refine .inr ?_
    unfold State.acknowledge
    split <;> rfl
  case h_4 sn hpoint =>
    obtain rfl : (s.draw sn).1 = s' := congrArg Prod.fst (Option.some.inj hstep)
    exact .inr rfl
  case h_5 sn finish hpoint =>
    obtain rfl : s.finishOneshot sn finish = s' := congrArg Prod.fst (Option.some.inj hstep)
    exact .inl ⟨sn, finish, hpoint, rfl⟩
  case h_6 =>
    obtain ⟨rfl, rfl⟩ := Prod.mk.inj (Option.some.inj hstep)
    exact .inr rfl
  case h_7 =>
    obtain ⟨rfl, rfl⟩ := Prod.mk.inj (Option.some.inj hstep)
    exact .inr rfl
  case h_8 =>
    obtain ⟨rfl, rfl⟩ := Prod.mk.inj (Option.some.inj hstep)
    exact .inr rfl
  case h_9 =>
    split at hstep
    case isTrue =>
      obtain ⟨rfl, rfl⟩ := Prod.mk.inj (Option.some.inj hstep)
      exact .inr rfl
    case isFalse =>
      split at hstep
      case isTrue =>
        obtain ⟨rfl, rfl⟩ := Prod.mk.inj (Option.some.inj hstep)
        exact .inr rfl
      case isFalse => cases hstep

/-- The end of a one-shot is told by what the thread knows of its snapshot. -/
theorem finishOneshot_spec {sn : Snapshot} {finish : Pattern} (h : Inv trace s) (hpoint : s.point = .finishing sn finish) :
    sn.epoch < (s.finishOneshot sn finish).epoch ∧ (s.finishOneshot sn finish).generation ≠ sn.generation ∧
      ((s.finishOneshot sn finish).patterns ≠ s.patterns →
        (s.finishOneshot sn finish).patterns = update s.patterns sn.priority finish ∧ sn.epoch = s.epoch ∧
          s.activeEpoch = s.epoch ∧ s.patterns sn.priority = sn.pattern) := by
  have hknows := h.knows
  rw [Knows, hpoint] at hknows
  obtain ⟨hsnapped, hactive, hdark, hne⟩ := hknows
  unfold State.finishOneshot
  split
  case isTrue hcurrent =>
    have hepoch : sn.epoch = s.epoch := hsnapped.numbered.current hcurrent.1
    have hselection : (sn.pattern, sn.priority) = (s.currentPattern, s.currentPriority) := hsnapped.selection hepoch
    have hpatterns : s.patterns sn.priority = sn.pattern := by
      rw [h.selected] at hselection
      rcases selectOf_eq s.patterns with hoff | hrequest
      · rw [hoff] at hselection
        rw [(Prod.mk.inj hselection).1] at hdark
        cases hdark
      · rw [← (congrArg Prod.fst hselection : sn.pattern = _), ← (congrArg Prod.snd hselection : sn.priority = _)]
          at hrequest
        exact hrequest.symm
    have hspec := selectLocked_spec finish sn.priority s
    have hchanged : (s.selectLocked finish sn.priority).2 = true := by
      refine hspec.told.mpr fun hsame => ?_
      have hselected := hspec.selected
      rw [hsame, ← hselection, hspec.patterns] at hselected
      rcases selectOf_eq (update s.patterns sn.priority finish) with hoff | hrequest
      · rw [hoff] at hselected
        rw [(Prod.mk.inj hselected).1] at hdark
        cases hdark
      · rw [← hselected, Function.update_self] at hrequest
        exact hne hrequest
    refine ⟨?_, ?_, fun _ => ⟨hspec.patterns, hepoch, hactive.trans hepoch, hpatterns⟩⟩
    · show sn.epoch < (s.selectLocked finish sn.priority).1.epoch
      rw [hspec.epoch, if_pos hchanged, hepoch]
      exact Nat.lt_succ_self _
    · show (s.selectLocked finish sn.priority).1.generation ≠ sn.generation
      rw [hspec.generation, if_pos hchanged, hcurrent.1]
      exact succ_ne _
  case isFalse hother =>
    have hne : sn.epoch ≠ s.epoch := by
      intro hepoch
      refine hother ⟨?_, congrArg Prod.snd (hsnapped.selection hepoch)⟩
      rw [hsnapped.numbered.number, h.generation, hepoch]
    have hle : sn.epoch ≤ s.epoch := hsnapped.numbered.le
    refine ⟨lt_of_le_of_ne hle hne, fun heq => hne (hsnapped.numbered.current heq.symm), fun hchanged => ?_⟩
    exact absurd rfl hchanged

/-- A step from a state the invariant holds of. -/
theorem Inv.stepKept (h : Inv trace s) (hstep : s.step i = some (s', es)) : StepKept s i s' := by
  have hsame : ∀ {s₁ s₂ : State}, s₂.now = s₁.now →
      (s₂.generation ≠ s₁.generation ↔ (s₂.currentPattern, s₂.currentPriority) ≠ (s₁.currentPattern, s₁.currentPriority)) := by
    intro s₁ s₂ hnow
    simp only [State.now, Snapshot.mk.injEq] at hnow
    obtain ⟨hpattern, hpriority, hgeneration, _⟩ := hnow
    rw [hpattern, hpriority, hgeneration]
    exact iff_of_false (fun hne => hne rfl) (fun hne => hne rfl)
  cases i with
  | setLed pattern priority =>
    simp only [State.step] at hstep
    split at hstep
    case isTrue =>
      obtain rfl : (s.setLed pattern priority).1 = s' := congrArg Prod.fst (Option.some.inj hstep)
      exact ⟨(selectLocked_spec pattern priority s).counted, by rintro _ _ ⟨⟩, by rintro _ _ _ _ ⟨⟩⟩
    case isFalse => cases hstep
  | give =>
    simp only [State.step] at hstep
    split at hstep
    case isTrue => cases hstep
    case isFalse =>
      obtain ⟨rfl, rfl⟩ := Prod.mk.inj (Option.some.inj hstep)
      exact ⟨hsame rfl, by rintro _ _ ⟨⟩, by rintro _ _ _ _ ⟨⟩⟩
  | poll generation =>
    obtain ⟨rfl, rfl⟩ := Prod.mk.inj (Option.some.inj hstep)
    exact ⟨hsame rfl, by rintro _ _ ⟨⟩, by rintro _ _ _ _ ⟨⟩⟩
  | work applied expired =>
    rcases work_now hstep with ⟨sn, finish, hpoint, rfl⟩ | hkept
    · obtain ⟨hepoch, hgeneration, hcleared⟩ := finishOneshot_spec h hpoint
      refine ⟨?_, fun _ _ _ hne => ⟨sn, finish, hpoint, hcleared hne⟩, ?_⟩
      · unfold State.finishOneshot
        split
        case isTrue => exact (selectLocked_spec finish sn.priority s).counted
        case isFalse => exact hsame rfl
      · intro _ _ sn' finish' _ hpoint'
        obtain ⟨rfl, rfl⟩ := Point.finishing.inj (hpoint.symm.trans hpoint')
        exact ⟨hepoch, hgeneration⟩
    · obtain ⟨hpatterns, hnow⟩ := Prod.mk.inj hkept
      refine ⟨hsame hnow, fun _ _ _ hne => absurd hpatterns hne, ?_⟩
      intro _ _ sn finish _ hpoint
      have hfinish : s' = s.finishOneshot sn finish := by
        simp only [State.step, State.work, hpoint] at hstep
        exact (congrArg Prod.fst (Option.some.inj hstep)).symm
      obtain ⟨hepoch, hgeneration, _⟩ := finishOneshot_spec h hpoint
      rw [hfinish]
      exact ⟨hepoch, hgeneration⟩

end Runs

/-! ## Two runs -/

/-- A request for a one-shot, and `n` steps of the thread. -/
def oneshotSteps (n : ℕ) : List Input := [Input.setLed .oneshotProgress 0, .give] ++ List.replicate n (.work true true)

/-- Two patterns in turn. -/
def turn (n : ℕ) : Pattern := if n % 2 = 0 then .on else .short

theorem turn_lit (n : ℕ) : turn n ≠ .off ∧ turn (n + 1) ≠ turn n := by
  unfold turn
  rcases Nat.mod_two_eq_zero_or_one n with h | h
  · rw [if_pos h, if_neg (by omega)]
    decide
  · rw [if_neg (by omega), if_pos (by omega)]
    decide

/-- After `n + 1` requests of the highest priority. -/
def turned (s : State) (n : ℕ) : State :=
  { s with
    patterns := update s.patterns 0 (turn n)
    currentPattern := turn n
    currentPriority := 0
    generation := s.generation + BitVec.ofNat 32 (n + 1)
    epoch := s.epoch + (n + 1)
    owed := s.owed + (n + 1) }

/-- A request of the highest priority is the selection. -/
theorem selectOf_zero {patterns : ℕ → Pattern} (h : patterns 0 ≠ .off) : selectOf patterns = (patterns 0, 0) := by
  have hrange : List.range depth = 0 :: [1, 2, 3, 4] := by decide
  have hfind : (List.range depth).find? (fun i => patterns i ≠ .off) = some 0 := by
    rw [hrange]
    exact List.find?_cons_of_pos (decide_eq_true h)
  unfold selectOf
  rw [hfind]

theorem setLed_highest {s : State} {pattern : Pattern} (hlit : pattern ≠ .off)
    (hother : (pattern, 0) ≠ (s.currentPattern, s.currentPriority)) : (s.setLed pattern 0).1 = { s with
      patterns := update s.patterns 0 pattern
      currentPattern := pattern
      currentPriority := 0
      generation := s.generation + 1
      epoch := s.epoch + 1
      owed := s.owed + 1 } := by
  have hselect : selectOf (update s.patterns 0 pattern) = (pattern, 0) := by
    rw [selectOf_zero (by rwa [Function.update_self]), Function.update_self]
  simp only [State.setLed, State.selectLocked, hselect, if_neg hother, if_true]

theorem run_setLed {s : State} {trace : List Event} (h : ledSystem.Run trace s) (pattern : Pattern) :
    ledSystem.Run (trace ++ (s.setLed pattern 0).2) (s.setLed pattern 0).1 := by
  have hstep : ledSystem.step s (.setLed pattern 0) = some (s.setLed pattern 0) := by
    show (if 0 < depth then some (s.setLed pattern 0) else none) = _
    rw [if_pos (by decide)]
  exact .snoc h trivial hstep

theorem exists_turned {s : State} {trace : List Event} (h : ledSystem.Run trace s)
    (hother : s.currentPattern ≠ .on) (n : ℕ) : ∃ trace', ledSystem.Run trace' (turned s n) := by
  induction n with
  | zero =>
    have hfirst : (s.setLed .on 0).1 = turned s 0 :=
      setLed_highest (by decide) fun heq => hother (congrArg Prod.fst heq).symm
    exact ⟨_, hfirst ▸ run_setLed h .on⟩
  | succ n ih =>
    obtain ⟨trace', hrun⟩ := ih
    have hnext : ((turned s n).setLed (turn (n + 1)) 0).1 = turned s (n + 1) := by
      rw [setLed_highest (turn_lit _).1 fun heq => (turn_lit n).2 (congrArg Prod.fst heq)]
      have hnumber : s.generation + BitVec.ofNat 32 (n + 1) + 1 = s.generation + BitVec.ofNat 32 (n + 1 + 1) := by
        rw [BitVec.add_assoc, BitVec.ofNat_add (n + 1) 1]
        rfl
      simp only [turned, Function.update_idem, hnumber, Nat.add_assoc]
    exact ⟨_, hnext ▸ run_setLed hrun (turn (n + 1))⟩

end Led

end SlimeReceiver
