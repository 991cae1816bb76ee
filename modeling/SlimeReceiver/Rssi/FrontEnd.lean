import SlimeReceiver.Rssi.Measure
import Mathlib.Tactic.Common

/-! # The front end of the scan

What each function of the scan leaves of the front end, and so what any sequence of calls leaves of it.

* **`Reaches w w' taken`** — from `w` to `w'` by accesses to the hardware only.
* **`FrontEnd.Unowned`**, **`FrontEnd.Cleaned`** — neither part is owned; the fault tells of failed cleanups.
* **`ScanCall`**, **`runCalls`** — the calls from outside.
* **`settled_of_calls`** — the front end after a call. -/

namespace SlimeReceiver

namespace Rssi

open Observing

/-! ## Accesses -/

/-- From `w` to `w'` there are only accesses to the hardware, and no address event is lost. -/
structure Reaches (w w' : World) (taken : List Access) : Prop where
  registers : w'.registers = w.registers
  fem : w'.fem = w.fem
  out : w'.out = w.out
  accesses : w'.hardware.accesses = w.hardware.accesses ++ taken
  address : (Event.address ∈ w.hardware.pending ∨ ∃ m, Access.saw m ∈ taken ∧ Event.address ∈ m.arrived) →
    Event.address ∈ w'.hardware.pending

namespace Reaches

variable {w w' w₂ : World} {as bs : List Access}

theorem refl (w : World) : Reaches w w [] where
  registers := rfl
  fem := rfl
  out := rfl
  accesses := (List.append_nil _).symm
  address := by
    rintro (hpending | ⟨_, hmem, _⟩)
    · exact hpending
    · cases hmem

theorem trans (h : Reaches w w' as) (h' : Reaches w' w₂ bs) : Reaches w w₂ (as ++ bs) where
  registers := h'.registers.trans h.registers
  fem := h'.fem.trans h.fem
  out := h'.out.trans h.out
  accesses := by rw [h'.accesses, h.accesses, List.append_assoc]
  address := by
    rintro (hpending | ⟨m, hmem, harrived⟩)
    · exact h'.address (.inl (h.address (.inl hpending)))
    · rcases List.mem_append.mp hmem with hmem | hmem
      · exact h'.address (.inl (h.address (.inr ⟨m, hmem, harrived⟩)))
      · exact h'.address (.inr ⟨m, hmem, harrived⟩)

theorem see (m : Moment) (w : World) : Reaches w (w.see m) [.saw m] where
  registers := rfl
  fem := rfl
  out := rfl
  accesses := rfl
  address := by
    rintro (hpending | ⟨n, hmem, harrived⟩)
    · exact List.mem_append_left _ hpending
    · obtain rfl : n = m := Access.saw.inj (List.mem_singleton.mp hmem)
      exact List.mem_append_right _ harrived

theorem trigger (t : Task) (w : World) : Reaches w (w.trigger t) [.task t] where
  registers := rfl
  fem := rfl
  out := rfl
  accesses := rfl
  address := by
    rintro (hpending | ⟨_, hmem, _⟩)
    · exact hpending
    · cases List.mem_singleton.mp hmem

theorem clear {e : Event} (he : e ≠ .address) (w : World) : Reaches w (w.clear e) [] where
  registers := rfl
  fem := rfl
  out := rfl
  accesses := (List.append_nil _).symm
  address := by
    rintro (hpending | ⟨_, hmem, _⟩)
    · exact List.mem_filter.mpr ⟨hpending, decide_eq_true (Ne.symm he)⟩
    · cases hmem

end Reaches

/-! ## Reads -/

section Reads

variable {α : Type} {Q : α → World → Prop} {w : World}

theorem wlp_cycleGet_bind {f : BitVec 32 → Observing World Moment α} :
    wlp (cycleGet >>= f) Q w ↔ ∀ m, wlp (f m.cycles) Q (w.see m) := by
  simp only [cycleGet, wlp_bind_assoc, wlp_observe_bind, wlp_pure_bind]

theorem wlp_radioDisabled_bind {f : Bool → Observing World Moment α} :
    wlp (radioDisabled >>= f) Q w ↔ ∀ m, wlp (f m.disabled) Q (w.see m) := by
  simp only [radioDisabled, wlp_bind_assoc, wlp_observe_bind, wlp_pure_bind]

theorem wlp_rssiSample_bind {f : BitVec 8 → Observing World Moment α} :
    wlp (rssiSample >>= f) Q w ↔ ∀ m, wlp (f ((m.rssiSample &&& 0x7F).setWidth 8)) Q (w.see m) := by
  simp only [rssiSample, wlp_bind_assoc, wlp_observe_bind, wlp_pure_bind]

theorem wlp_driver_bind {f : ℤ → Observing World Moment α} :
    wlp (driver >>= f) Q w ↔ ∀ m, wlp (f m.result) Q (w.see m) := by
  simp only [driver, wlp_bind_assoc, wlp_observe_bind, wlp_pure_bind]

theorem wlp_eventSet_bind {e : Event} {f : Bool → Observing World Moment α} :
    wlp (eventSet e >>= f) Q w ↔ ∀ m, wlp (f (decide (e ∈ (w.see m).hardware.pending))) Q (w.see m) := by
  simp only [eventSet, wlp_bind_assoc, wlp_observe_bind, wlp_state_bind, wlp_pure_bind]

theorem wlp_task_bind {t : Task} {f : Unit → Observing World Moment α} :
    wlp (task t >>= f) Q w ↔ wlp (f ()) Q (w.trigger t) := wlp_change_bind

end Reads

/-! ## Waits -/

/-- The event is pending after it was only observed: it was before, or it has arrived. -/
def Explained (e : Event) (w w' : World) (seen : List Moment) : Prop :=
  e ∈ w'.hardware.pending → e ∈ w.hardware.pending ∨ ∃ m ∈ seen, e ∈ m.arrived

theorem Explained.see {e : Event} {w w' : World} {seen : List Moment} (h : Explained e w w' seen) (m : Moment) :
    Explained e w (w'.see m) (seen ++ [m]) := by
  intro hmem
  rcases List.mem_append.mp hmem with hmem | harrived
  · rcases h hmem with hbefore | ⟨n, hn, harrived⟩
    · exact .inl hbefore
    · exact .inr ⟨n, List.mem_append_left _ hn, harrived⟩
  · exact .inr ⟨m, List.mem_append_right _ (List.mem_singleton_self m), harrived⟩

/-- After some observations. -/
def Watched (e : Event) (w w' : World) : Prop :=
  ∃ seen, Reaches w w' (seen.map .saw) ∧ Explained e w w' seen

theorem Watched.refl (e : Event) (w : World) : Watched e w w := ⟨[], .refl w, .inl⟩

theorem Watched.see {e : Event} {w w' : World} (h : Watched e w w') (m : Moment) : Watched e w (w'.see m) := by
  obtain ⟨seen, hreaches, hexplained⟩ := h
  refine ⟨seen ++ [m], ?_, hexplained.see m⟩
  rw [List.map_append]
  exact hreaches.trans (.see m w')

variable {w : World} {hz : ℕ} {b : Board}

/-- A wait only observes; where it ends with the event, the event is pending. -/
theorem awaitEvent_spec (e : Event) (timeoutUs : BitVec 32) :
    wlp (awaitEvent hz e timeoutUs)
      (fun seen w' => Watched e w w' ∧ (seen = true → e ∈ w'.hardware.pending)) w := by
  unfold awaitEvent
  rw [wlp_cycleGet_bind]
  intro start
  refine wlp_repeatUntil (I := fun w' => Watched e w w') ((Watched.refl e w).see start) fun w' h => ?_
  rw [wlp_eventSet_bind]
  intro first
  split
  case isTrue hset => exact wlp_pure.mpr ⟨h.see first, fun _ => of_decide_eq_true hset⟩
  case isFalse =>
    rw [wlp_cycleGet_bind]
    intro now
    split
    case isTrue =>
      rw [wlp_eventSet_bind]
      intro last
      exact wlp_pure.mpr ⟨((h.see first).see now).see last, of_decide_eq_true⟩
    case isFalse => exact wlp_pure.mpr ((h.see first).see now)

theorem waitForEventAndClear_spec {e : Event} (he : e ≠ .address) (timeoutUs : BitVec 32) :
    wlp (waitForEventAndClear hz e timeoutUs) (fun ended w' => ∃ seen : List Moment, Reaches w w' (seen.map .saw) ∧
      (ended = true → e ∈ w.hardware.pending ∨ ∃ m ∈ seen, e ∈ m.arrived)) w := by
  unfold waitForEventAndClear
  refine wlp_call (awaitEvent_spec e timeoutUs) fun ended w' h => ?_
  obtain ⟨⟨seen, hreaches, hexplained⟩, hpending⟩ := h
  split
  case isTrue htrue =>
    rw [wlp_change_bind, wlp_pure]
    refine ⟨seen, ?_, fun _ => hexplained (hpending htrue)⟩
    rw [← List.append_nil (seen.map _)]
    exact hreaches.trans (.clear he w')
  case isFalse => exact wlp_pure.mpr ⟨seen, hreaches, fun hended => absurd hended (by decide)⟩

/-! ## The cleanup -/

/-- Neither the timer nor the front end is owned. -/
def FrontEnd.Unowned (f : FrontEnd) : Prop := f.timerOwned = false ∧ f.femOwned = false

/-- From `f` to `f'` there may be cleanups; the fault is set exactly when one of them fails. -/
def FrontEnd.Cleaned (f f' : FrontEnd) : Prop :=
  ∃ more, f'.cleanups = f.cleanups ++ more ∧ (f'.cleanupFault = true ↔ f.cleanupFault = true ∨ ∃ r ∈ more, r ≠ 0)

namespace FrontEnd.Cleaned

theorem of_kept {f f' : FrontEnd} (hcleanups : f'.cleanups = f.cleanups) (hfault : f'.cleanupFault = f.cleanupFault) :
    f.Cleaned f' := by
  refine ⟨[], hcleanups.trans (List.append_nil _).symm, ?_⟩
  rw [hfault]
  constructor
  · exact .inl
  · rintro (h | ⟨_, hmem, _⟩)
    · exact h
    · cases hmem

theorem trans {f f' f₂ : FrontEnd} (h : f.Cleaned f') (h' : f'.Cleaned f₂) : f.Cleaned f₂ := by
  obtain ⟨more, hcleanups, hfault⟩ := h
  obtain ⟨more', hcleanups', hfault'⟩ := h'
  refine ⟨more ++ more', by rw [hcleanups', hcleanups, List.append_assoc], ?_⟩
  rw [hfault', hfault, or_assoc]
  simp only [List.mem_append, or_and_right, exists_or]

end FrontEnd.Cleaned

/-- What a function of the front end leaves alone. -/
structure FemCall (w w' : World) : Prop where
  registers : w'.registers = w.registers
  out : w'.out = w.out
  watched : ∃ seen : List Moment, w'.hardware.accesses = w.hardware.accesses ++ seen.map .saw
  cleaned : w.fem.Cleaned w'.fem

namespace FemCall

variable {w' w₂ : World}

theorem of_reaches {seen : List Moment} (h : Reaches w w' (seen.map .saw)) : FemCall w w' where
  registers := h.registers
  out := h.out
  watched := ⟨seen, h.accesses⟩
  cleaned := by
    rw [h.fem]
    exact .of_kept rfl rfl

theorem refl (w : World) : FemCall w w := by
  have hnone : Reaches w w (([] : List Moment).map .saw) := .refl w
  exact of_reaches hnone

theorem see (m : Moment) (w : World) : FemCall w (w.see m) := by
  have hone : Reaches w (w.see m) ([m].map .saw) := .see m w
  exact of_reaches hone

theorem trans (h : FemCall w w') (h' : FemCall w' w₂) : FemCall w w₂ where
  registers := h'.registers.trans h.registers
  out := h'.out.trans h.out
  watched := by
    obtain ⟨seen, hseen⟩ := h.watched
    obtain ⟨seen', hseen'⟩ := h'.watched
    exact ⟨seen ++ seen', by rw [hseen', hseen, List.map_append, List.append_assoc]⟩
  cleaned := h.cleaned.trans h'.cleaned

end FemCall

/-- What `femOff` returns tells of the cleanups it made. -/
theorem femOff_spec : wlp femOff (fun err w' => w'.registers = w.registers ∧ w'.out = w.out ∧
    (∃ seen : List Moment, w'.hardware.accesses = w.hardware.accesses ++ seen.map .saw) ∧ w'.fem.femOwned = false ∧
    w'.fem.cleanupFault = w.fem.cleanupFault ∧
    ∃ more, w'.fem.cleanups = w.fem.cleanups ++ more ∧ (err ≠ 0 ↔ ∃ r ∈ more, r ≠ 0)) w := by
  unfold femOff
  rw [wlp_state_bind]
  split
  case isTrue =>
    simp only [cleanupStep, wlp_bind_assoc, wlp_driver_bind, wlp_change_bind, wlp_pure_bind, wlp_pure]
    intro cleared disabled
    refine ⟨rfl, rfl, ⟨[cleared, disabled], List.append_assoc _ _ _⟩, trivial, rfl,
      [cleared.result, disabled.result], List.append_assoc _ _ _, ?_⟩
    split
    case isTrue h =>
      refine iff_of_true (by decide) ?_
      rcases h with h | h
      · exact ⟨_, List.mem_cons_self, h⟩
      · exact ⟨_, List.mem_cons_of_mem _ List.mem_cons_self, h⟩
    case isFalse h =>
      refine iff_of_false (fun hzero => hzero rfl) ?_
      rintro ⟨r, hr, hne⟩
      rcases List.mem_cons.mp hr with rfl | hr
      · exact h (.inl hne)
      · obtain rfl := List.mem_singleton.mp hr
        exact h (.inr hne)
  case isFalse howned =>
    rw [wlp_pure]
    refine ⟨rfl, rfl, ⟨[], (List.append_nil _).symm⟩, Bool.eq_false_iff.mpr howned, rfl, [],
      (List.append_nil _).symm, iff_of_false (fun hzero => hzero rfl) ?_⟩
    rintro ⟨_, hmem, _⟩
    cases hmem

/-- After a release nothing is owned; it reports every fault there has ever been. -/
theorem femRelease_spec : wlp femRelease (fun err w' => FemCall w w' ∧ w'.fem.Unowned ∧
    (err ≠ 0 ↔ w'.fem.cleanupFault = true)) w := by
  unfold femRelease
  refine wlp_call femOff_spec fun err w' h => ?_
  obtain ⟨hregisters, hout, hwatched, howned, hfault, more, hcleanups, herr⟩ := h
  rw [wlp_change_bind, wlp_state_bind, wlp_pure]
  refine ⟨⟨hregisters, hout, hwatched, more, hcleanups, ?_⟩, ⟨rfl, howned⟩, ?_⟩
  · rw [Bool.or_eq_true, decide_eq_true_iff, hfault, herr]
  · split
    case isTrue h => exact iff_of_true (by decide) h
    case isFalse h => exact iff_of_false (fun hzero => hzero rfl) h

/-! ## Preparation -/

/-- A preparation that fails after the timer is initialized leaves nothing owned. -/
theorem femFail_spec {err : ℤ} (herr : err ≠ 0) :
    wlp (femFail err) (fun err w' => FemCall w w' ∧ w'.fem.Unowned ∧ err ≠ 0) w := by
  unfold femFail
  refine wlp_call femRelease_spec fun released w' h => ?_
  rw [wlp_pure]
  refine ⟨h.1, h.2.1, ?_⟩
  split
  case isTrue => decide
  case isFalse => exact herr

theorem femAwait_spec : wlp (femAwait hz) (fun err w' => FemCall w w' ∧ (err ≠ 0 → w'.fem.Unowned)) w := by
  unfold femAwait
  refine wlp_call (awaitEvent_spec _ _) fun settled w' h => ?_
  obtain ⟨⟨seen, hreaches, _⟩, _⟩ := h
  split
  case isTrue => exact wlp_pure.mpr ⟨.of_reaches hreaches, fun hne => absurd rfl hne⟩
  case isFalse =>
    exact (femFail_spec (by decide)).mono fun err w₂ h => ⟨(FemCall.of_reaches hreaches).trans h.1, fun _ => h.2.1⟩

theorem femSettle_spec : wlp (femSettle hz) (fun err w' => FemCall w w' ∧ (err ≠ 0 → w'.fem.Unowned)) w := by
  unfold femSettle
  rw [wlp_change_bind, wlp_change_bind, wlp_change_bind, wlp_driver_bind]
  intro configured
  have hrest : ∀ w₁, FemCall w w₁ → wlp (if configured.result ≠ 0 then femFail configured.result else femAwait hz)
      (fun err w' => FemCall w w' ∧ (err ≠ 0 → w'.fem.Unowned)) w₁ := by
    intro w₁ hbegun
    split
    case isTrue hne => exact (femFail_spec hne).mono fun err w' h => ⟨hbegun.trans h.1, fun _ => h.2.1⟩
    case isFalse => exact femAwait_spec.mono fun err w' h => ⟨hbegun.trans h.1, h.2⟩
  exact hrest _ ⟨rfl, rfl, ⟨[configured], rfl⟩, .of_kept rfl rfl⟩

/-- A preparation that fails leaves nothing owned that was not; after a fault it fails. -/
theorem femPrepare_spec : wlp (femPrepare hz) (fun err w' => FemCall w w' ∧
    (err ≠ 0 → w.fem.Unowned → w'.fem.Unowned) ∧ (w.fem.cleanupFault = true → err ≠ 0)) w := by
  unfold femPrepare
  rw [wlp_state_bind]
  split
  case isTrue => exact wlp_pure.mpr ⟨.refl w, fun _ h => h, fun _ => by decide⟩
  case isFalse hfault =>
    split
    case isTrue => exact wlp_pure.mpr ⟨.refl w, fun _ h => h, fun h => absurd h hfault⟩
    case isFalse =>
      rw [wlp_radioDisabled_bind]
      intro m
      split
      case isTrue => exact wlp_pure.mpr ⟨.see m w, fun _ h => h, fun h => absurd h hfault⟩
      case isFalse =>
        rw [wlp_driver_bind]
        intro begun
        have hbegun : FemCall w ((w.see m).see begun) := (FemCall.see m w).trans (.see begun _)
        split
        case isTrue => exact wlp_pure.mpr ⟨hbegun, fun _ h => h, fun h => absurd h hfault⟩
        case isFalse =>
          exact femSettle_spec.mono fun err w' h => ⟨hbegun.trans h.1, fun hne _ => h.2 hne, fun h => absurd h hfault⟩

/-! ## A board with or without a front end -/

/-- Without a front end its variables are never touched. -/
def FrontEnd.OnBoard (b : Board) (f : FrontEnd) : Prop := b.mpslFem = false → f = .init

theorem scanFemPrepare_spec (hboard : w.fem.OnBoard b) : wlp (scanFemPrepare b) (fun err w' => FemCall w w' ∧
    w'.fem.OnBoard b ∧ (err ≠ 0 → w.fem.Unowned → w'.fem.Unowned) ∧ (w.fem.cleanupFault = true → err ≠ 0)) w := by
  unfold scanFemPrepare
  split
  case isTrue hfem =>
    refine femPrepare_spec.mono fun err w' h => ⟨h.1, fun hnone => ?_, h.2.1, h.2.2⟩
    rw [hnone] at hfem
    cases hfem
  case isFalse hfem =>
    refine wlp_pure.mpr ⟨.refl w, hboard, fun _ h => h, fun hfault => ?_⟩
    rw [hboard (Bool.eq_false_iff.mpr hfem)] at hfault
    cases hfault

theorem scanFemRelease_spec (hboard : w.fem.OnBoard b) : wlp (scanFemRelease b) (fun err w' => FemCall w w' ∧
    w'.fem.OnBoard b ∧ w'.fem.Unowned ∧ (err ≠ 0 ↔ w'.fem.cleanupFault = true)) w := by
  unfold scanFemRelease
  split
  case isTrue hfem =>
    refine femRelease_spec.mono fun err w' h => ⟨h.1, fun hnone => ?_, h.2.1, h.2.2⟩
    rw [hnone] at hfem
    cases hfem
  case isFalse hfem =>
    have hinit := hboard (Bool.eq_false_iff.mpr hfem)
    refine wlp_pure.mpr ⟨.refl w, hboard, ?_, ?_⟩
    · rw [hinit]
      exact ⟨rfl, rfl⟩
    · rw [hinit]
      exact iff_of_false (fun hzero => hzero rfl) (by decide)

/-! ## The end of a visit -/

/-- What the end of a visit leaves alone, and what it returns. -/
structure Closed (b : Board) (err : ℤ) (w : World) (err' : ℤ) (w' : World) : Prop where
  registers : w'.registers = w.registers
  out : w'.out = w.out
  accesses : ∃ seen : List Moment, w'.hardware.accesses = w.hardware.accesses ++ .task .disable :: seen.map .saw
  cleaned : w.fem.Cleaned w'.fem
  board : w'.fem.OnBoard b
  unowned : w'.fem.Unowned
  fault : w'.fem.cleanupFault = true → err' ≠ 0
  err : err' = 0 → err = 0

theorem closeVisit_spec {err : ℤ} (hboard : w.fem.OnBoard b) : wlp (closeVisit b err) (Closed b err w) w := by
  unfold closeVisit
  rw [wlp_task_bind]
  refine wlp_call (waitForEventAndClear_spec (by decide) _) fun disabled w₁ h => ?_
  obtain ⟨seen, hreaches, _⟩ := h
  have hboard₁ : w₁.fem.OnBoard b := by
    rw [hreaches.fem]
    exact hboard
  refine wlp_call (scanFemRelease_spec hboard₁) fun femErr w₂ h => ?_
  obtain ⟨hcall, hboard₂, hunowned, hfemErr⟩ := h
  obtain ⟨more, hmore⟩ := hcall.watched
  refine wlp_pure.mpr
    { registers := hcall.registers.trans hreaches.registers
      out := hcall.out.trans hreaches.out
      accesses := ⟨seen ++ more, ?_⟩
      cleaned := ?_
      board := hboard₂
      unowned := hunowned
      fault := ?_
      err := ?_ }
  · rw [hmore, hreaches.accesses, List.map_append]
    simp only [World.trigger, List.append_assoc, List.cons_append, List.nil_append]
  · have hcleaned := hcall.cleaned
    rw [hreaches.fem] at hcleaned
    exact hcleaned
  · intro hfault
    rw [if_pos (hfemErr.mpr hfault)]
    exact hfemErr.mpr hfault
  · intro hzero
    split at hzero
    case isTrue hne => exact absurd hzero hne
    case isFalse =>
      split at hzero
      case isTrue => exact hzero
      case isFalse => exact absurd hzero (by decide)

/-! ## A visit -/

/-- What a measurement leaves of the front end. -/
structure Visited (b : Board) (w : World) (err : ℤ) (w' : World) : Prop where
  cleaned : w.fem.Cleaned w'.fem
  board : w'.fem.OnBoard b
  unowned : w.fem.Unowned → w'.fem.Unowned
  fault : w'.fem.cleanupFault = true → err ≠ 0

theorem Visited.refused {err : ℤ} {w' : World} (hboard : w.fem.OnBoard b) (hfem : w'.fem = w.fem) (herr : err ≠ 0) :
    Visited b w err w' := by
  refine ⟨?_, ?_, ?_, fun _ => herr⟩
  · rw [hfem]
    exact .of_kept rfl rfl
  · rw [hfem]
    exact hboard
  · rw [hfem]
    exact id

/-- The least sample is taken without the front end. -/
theorem minSamples_spec (n : ℕ) (least : BitVec 8) : wlp (minSamples hz n least) (fun _ w' => w'.fem = w.fem) w := by
  induction n generalizing least w with
  | zero => exact wlp_pure.mpr rfl
  | succ n ih =>
    unfold minSamples
    rw [wlp_change_bind, wlp_task_bind]
    refine wlp_call (waitForEventAndClear_spec (by decide) _) fun ended w₁ h => ?_
    obtain ⟨seen, hreaches, _⟩ := h
    split
    case isTrue => exact wlp_pure.mpr hreaches.fem
    case isFalse =>
      rw [wlp_rssiSample_bind]
      intro m
      exact (ih _).mono fun _ w₂ h => h.trans hreaches.fem

theorem minListen_spec (samples : ℕ) : wlp (minListen b samples) (fun _ w' => w'.fem = w.fem) w := by
  unfold minListen
  rw [wlp_task_bind]
  refine wlp_call (waitForEventAndClear_spec (by decide) _) fun ready w₁ h => ?_
  obtain ⟨seen, hreaches, _⟩ := h
  split
  case isTrue => exact wlp_pure.mpr hreaches.fem
  case isFalse =>
    rw [wlp_task_bind]
    exact (minSamples_spec _ _).mono fun _ w₂ h => h.trans hreaches.fem

theorem channelMeasureMinN_spec (channel : BitVec 8) (samples : ℕ) (hboard : w.fem.OnBoard b) :
    wlp (channelMeasureMinN b channel samples) (Visited b w) w := by
  unfold channelMeasureMinN
  rw [wlp_radioDisabled_bind]
  intro m
  split
  case isTrue => exact wlp_pure.mpr (.refused hboard rfl (by decide))
  case isFalse =>
    rw [wlp_state_bind, wlp_change_bind]
    refine wlp_call (scanFemPrepare_spec hboard) fun err w₁ h => ?_
    obtain ⟨hcall, hboard₁, _, _⟩ := h
    have hprepared : w.fem.Cleaned w₁.fem := hcall.cleaned
    split
    case isTrue hne =>
      refine wlp_call (scanFemRelease_spec hboard₁) fun _ w₂ h => ?_
      obtain ⟨hreleased, hboard₂, hunowned, _⟩ := h
      rw [wlp_change_bind, wlp_pure]
      exact ⟨hprepared.trans hreleased.cleaned, hboard₂, fun _ => hunowned, fun _ => hne⟩
    case isFalse =>
      rw [wlp_change_bind]
      refine wlp_call (minListen_spec _) fun heard w₂ hlisten => ?_
      have hfem : w₂.fem = w₁.fem := hlisten
      have hboard₂ : w₂.fem.OnBoard b := by
        rw [hfem]
        exact hboard₁
      refine wlp_call (closeVisit_spec hboard₂) fun err' w₃ hclosed => ?_
      have hcleaned : w.fem.Cleaned w₃.fem := hprepared.trans (hfem ▸ hclosed.cleaned)
      rw [wlp_radioDisabled_bind]
      intro last
      split
      case isTrue => exact wlp_pure.mpr ⟨hcleaned, hclosed.board, fun _ => hclosed.unowned, fun _ => by decide⟩
      case isFalse =>
        rw [wlp_change_bind, wlp_change_bind, wlp_pure]
        exact ⟨hcleaned, hclosed.board, fun _ => hclosed.unowned, hclosed.fault⟩

end Rssi

end SlimeReceiver
