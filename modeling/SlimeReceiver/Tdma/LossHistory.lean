import Mathlib.Algebra.BigOperators.Group.List.Basic
import Mathlib.Algebra.Ring.Nat
import SlimeReceiver.Tdma.Machine

/-! # What the loss controller remembers

* **`judgedSince`** — the pools judged since the windows last started again, read off the history.
* **`Credits counts pools n`** — the newest pools all count and credit at least `n` ticks.
* **`LevelChangeLaw`** — what a change of the level must satisfy given the history before it.
* **`LossStep`** — everything a step can do to the controller.
* **`LossHistory`** — the invariant of every run: a streak never exceeds what the history credits,
  and an unpublished level goes with fresh windows. -/

namespace SlimeReceiver

open Function (update)

/-! ## Reading the history -/

/-- A judged pool: what it received and missed and the ticks it credits. -/
structure JudgedPool where
  received : ℕ
  gaps : ℕ
  ticks : ℕ
  deriving DecidableEq, Repr

/-- `pool_samples` of a judged pool. -/
def JudgedPool.samples (p : JudgedPool) : ℕ := (p.received + p.gaps) % 2 ^ 32

/-- The judged pools after one more event: boundaries and level changes start over. -/
def windowEvent (pools : List JudgedPool) : TdmaEvent → List JudgedPool
  | .membershipReset | .levelWithdrawn | .statsReset => []
  | .ticked (.judged received gaps ticks .keep) => pools ++ [⟨received, gaps, ticks⟩]
  | .ticked .pooled => pools
  | .ticked _ => []
  | _ => pools

/-- The pools judged since the windows last started again, oldest first. -/
def judgedSince (trace : List TdmaEvent) : List JudgedPool := trace.foldl windowEvent []

theorem judgedSince_append (trace es : List TdmaEvent) :
    judgedSince (trace ++ es) = es.foldl windowEvent (judgedSince trace) := List.foldl_append

/-- The newest of `pools` all count, and they credit at least `n` ticks. -/
def Credits (counts : ℕ → ℕ → Bool) (pools : List JudgedPool) (n : ℕ) : Prop :=
  ∃ run, run <:+ pools ∧ (∀ p ∈ run, counts p.gaps p.samples = true) ∧ n ≤ (run.map (·.ticks)).sum

section Credits

variable {counts : ℕ → ℕ → Bool} {pools : List JudgedPool} {n m : ℕ}

@[simp] theorem credits_zero : Credits counts pools 0 :=
  ⟨[], List.nil_suffix, by simp, Nat.zero_le _⟩

theorem Credits.mono (h : Credits counts pools n) (hm : m ≤ n) : Credits counts pools m := by
  obtain ⟨run, hsuffix, hcounts, hsum⟩ := h
  exact ⟨run, hsuffix, hcounts, hm.trans hsum⟩

/-- A streak credited with one more pool is covered by the history with that pool. -/
theorem Credits.credit (h : Credits counts pools n) (p : JudgedPool) (limit : ℕ) :
    Credits counts (pools ++ [p]) (creditStreak (counts p.gaps p.samples) n p.ticks limit) := by
  unfold creditStreak
  split
  case isTrue hcounts =>
    obtain ⟨run, hsuffix, hrun, hsum⟩ := h
    refine Credits.mono (n := n + p.ticks) ⟨run ++ [p], ?_, ?_, ?_⟩ (min_le_left _ _)
    · obtain ⟨older, rfl⟩ := hsuffix
      exact ⟨older, List.append_assoc _ _ _ ▸ rfl⟩
    · intro q hq
      rcases List.mem_append.mp hq with hq | hq
      · exact hrun q hq
      · rw [List.mem_singleton.mp hq]
        exact hcounts
    · simp only [List.map_append, List.sum_append, List.map_cons, List.map_nil, List.sum_cons,
        List.sum_nil]
      omega
  case isFalse => exact credits_zero

end Credits

/-- What a change of the requested level must satisfy when `pools` were judged since the windows
started again: the newest of them, the deciding one included, all lie beyond the threshold and
credit enough ticks. -/
def ChangeJustified (pools : List JudgedPool) : TdmaEvent → Prop
  | .ticked (.judged received gaps ticks .raise) =>
      Credits aboveTrigger (pools ++ [⟨received, gaps, ticks⟩]) 5
  | .ticked (.judged received gaps ticks .lower) =>
      Credits belowRecover (pools ++ [⟨received, gaps, ticks⟩]) 10 ∨
        Credits belowProbe (pools ++ [⟨received, gaps, ticks⟩]) 60
  | _ => True

/-- What an event must satisfy after the events `earlier`. -/
def LevelChangeLaw (earlier : List TdmaEvent) : TdmaEvent → Prop :=
  ChangeJustified (judgedSince earlier)

/-! ## What the other steps leave of the controller -/

namespace LossController

/-- The windows are as after `tdma_loss_reset_windows`. -/
structure WindowsClear (c : LossController) : Prop where
  trigger : c.triggerStreakTicks = 0
  recover : c.recoverStreakTicks = 0
  probe : c.probeStreakTicks = 0
  received : c.poolReceived = 0
  gaps : c.poolGaps = 0
  ticks : c.poolTicks = 0

theorem windowsClear_resetWindows (c : LossController) : c.resetWindows.WindowsClear :=
  ⟨rfl, rfl, rfl, rfl, rfl, rfl⟩

/-- `c'` has the level and the windows of `c`; at most the published level caught up. -/
structure Acknowledges (c c' : LossController) : Prop where
  capLevel : c'.capLevel = c.capLevel
  published : c'.publishedCapLevel = c.publishedCapLevel ∨ c'.publishedCapLevel = c.capLevel
  trigger : c'.triggerStreakTicks = c.triggerStreakTicks
  recover : c'.recoverStreakTicks = c.recoverStreakTicks
  probe : c'.probeStreakTicks = c.probeStreakTicks
  received : c'.poolReceived = c.poolReceived
  gaps : c'.poolGaps = c.poolGaps
  ticks : c'.poolTicks = c.poolTicks

theorem Acknowledges.refl (c : LossController) : Acknowledges c c :=
  ⟨rfl, .inl rfl, rfl, rfl, rfl, rfl, rfl, rfl⟩

end LossController

open LossController

namespace Tdma

/-- A pass leaves the controller it decided with, up to the acknowledged level. -/
theorem recalculatePass_acknowledges (forced diagnosticsReset : Bool) (modes : RecalculateModes)
    (t : Tdma) : Acknowledges (t.decided forced diagnosticsReset modes).loss
      (t.recalculatePass forced diagnosticsReset modes).1.loss := by
  have hresult := recalculatePass_result forced diagnosticsReset modes t
  generalize t.recalculatePass forced diagnosticsReset modes = r at hresult ⊢
  generalize t.decided forced diagnosticsReset modes = d at hresult
  cases hresult with
  | empty => exact ⟨rfl, .inr rfl, rfl, rfl, rfl, rfl, rfl, rfl⟩
  | unchanged =>
    unfold returnUnchanged
    split
    · exact .refl _
    · exact ⟨rfl, .inr rfl, rfl, rfl, rfl, rfl, rfl, rfl⟩
  | wait | again => exact .refl _
  | publish =>
    simp only [publish]
    split
    · exact ⟨rfl, .inr rfl, rfl, rfl, rfl, rfl, rfl, rfl⟩
    · exact ⟨rfl, .inl rfl, rfl, rfl, rfl, rfl, rfl, rfl⟩

/-- The controller a pass decides with. -/
theorem decided_loss (forced diagnosticsReset : Bool) (modes : RecalculateModes) (t : Tdma) :
    (t.decided forced diagnosticsReset modes).loss =
      if (t.decided forced diagnosticsReset modes).maskChanged then
        { t.loss with capLevel := 0 }.resetWindows
      else if modes.collecting then { t.loss with capLevel := t.loss.publishedCapLevel }
      else t.loss := by
  have hmask : (t.decided forced diagnosticsReset modes).maskChanged =
      (t.resampled forced diagnosticsReset).maskChanged := by
    rw [decided, adoptLevel_eq]
    rfl
  have hloss := resampled_loss forced diagnosticsReset t
  rw [hmask, decided, adoptLevel]
  split
  · rw [hloss]
  · split <;> simp

theorem cleared_loss (t : Tdma) : Acknowledges t.loss t.cleared.loss := by
  refine forBelow_invariant (n := maxTrackers) (P := fun _ (s : Tdma) => Acknowledges t.loss s.loss)
    (.refl _) fun i s _ hs => ?_
  rw [trackerSlotReset_loss]
  exact ⟨hs.capLevel, hs.published, hs.trigger, hs.recover, hs.probe, hs.received, hs.gaps, hs.ticks⟩

end Tdma

/-! ## What a step does to the controller -/

/-- Events that leave the judged pools as they are. -/
def IsQuiet (e : TdmaEvent) : Prop := ∀ pools, windowEvent pools e = pools ∧ ChangeJustified pools e

/-- Events that start the windows again. -/
def IsRestart (e : TdmaEvent) : Prop := ∀ pools, windowEvent pools e = [] ∧ ChangeJustified pools e

namespace Tdma

/-- Everything a step can do to the controller. -/
inductive LossStep (t : Tdma) : TdmaOp → LossController → List TdmaEvent → Prop
  | quiet (op : TdmaOp) (c : LossController) (es : List TdmaEvent) :
      Acknowledges t.loss c → (∀ e ∈ es, IsQuiet e) → LossStep t op c es
  /-- The windows start again, from the level `d` has, and the level may be acknowledged. -/
  | restart (op : TdmaOp) (d c : LossController) (before after : List TdmaEvent) (e : TdmaEvent) :
      d.WindowsClear → d.publishedCapLevel = t.loss.publishedCapLevel →
      d.capLevel = 0 ∨ d.capLevel = t.loss.publishedCapLevel ∨ d.capLevel = t.loss.capLevel →
      Acknowledges d c → (∀ e ∈ before, IsQuiet e) → IsRestart e → (∀ e ∈ after, IsQuiet e) →
      LossStep t op c (before ++ [e] ++ after)
  | tick (input : LossTickInput) : t.storeTask = .idle → LossStep t (.lossTick input)
      (t.lossControllerUpdate input).1 [.ticked (t.lossControllerUpdate input).2]

section Step

variable {t t' : Tdma} {op : TdmaOp} {es : List TdmaEvent}

/-- The events of a pass: between quiet ones, what happened to the level. -/
theorem passEvents_level (forced diagnosticsReset : Bool) (modes : RecalculateModes) (t : Tdma) :
    ∃ before after, (∀ e ∈ before, IsQuiet e) ∧ (∀ e ∈ after, IsQuiet e) ∧
      t.passEvents forced diagnosticsReset modes = before ++
        (if (t.decided forced diagnosticsReset modes).maskChanged then [.membershipReset]
          else if modes.collecting && t.ladderStep then [TdmaEvent.levelWithdrawn] else []) ++ after := by
  refine ⟨_, _, fun e he pools => ?_, fun e he pools => ?_, rfl⟩
  · split at he
    · obtain rfl := List.mem_singleton.mp he
      exact ⟨rfl, trivial⟩
    · cases he
  · split at he
    · obtain rfl := List.mem_singleton.mp he
      exact ⟨rfl, trivial⟩
    · cases he

/-- What a pass does to the controller, where an unpublished level goes with fresh windows. -/
theorem lossStep_pass (forced diagnosticsReset : Bool) (modes : RecalculateModes)
    (hclear : t.loss.capLevel ≠ t.loss.publishedCapLevel → t.loss.WindowsClear) :
    LossStep t (.pass modes) (t.recalculatePass forced diagnosticsReset modes).1.loss
      (t.passEvents forced diagnosticsReset modes) := by
  have hack := t.recalculatePass_acknowledges forced diagnosticsReset modes
  have hloss := t.decided_loss forced diagnosticsReset modes
  obtain ⟨before, after, hbefore, hafter, hevents⟩ := t.passEvents_level forced diagnosticsReset modes
  rw [hevents]
  cases hmask : (t.decided forced diagnosticsReset modes).maskChanged with
  | true =>
    rw [hmask, if_pos rfl] at hloss
    rw [if_pos rfl]
    refine .restart _ _ _ _ _ _ ?_ ?_ ?_ hack hbefore (fun _ => ⟨rfl, trivial⟩) hafter
    · rw [hloss]; exact windowsClear_resetWindows _
    · rw [hloss]; rfl
    · rw [hloss]; exact .inl rfl
  | false =>
    rw [hmask, if_neg Bool.false_ne_true] at hloss
    rw [if_neg Bool.false_ne_true]
    cases hwithdraws : modes.collecting && t.ladderStep with
    | true =>
      obtain ⟨hcollects, hladder⟩ := Bool.and_eq_true_iff.mp hwithdraws
      rw [if_pos hcollects] at hloss
      rw [if_pos rfl]
      -- A level is only unpublished with fresh windows, so withdrawing it starts them again.
      have hfresh := hclear (bne_iff_ne.mp hladder)
      refine .restart _ _ _ _ _ _ ?_ ?_ ?_ hack hbefore (fun _ => ⟨rfl, trivial⟩) hafter
      · rw [hloss]
        exact ⟨hfresh.trigger, hfresh.recover, hfresh.probe, hfresh.received, hfresh.gaps,
          hfresh.ticks⟩
      · rw [hloss]
      · rw [hloss]; exact .inr (.inl rfl)
    | false =>
      have hsame : (t.decided forced diagnosticsReset modes).loss = t.loss := by
        rw [hloss]
        split
        · rename_i hcollects
          rw [hcollects, Bool.true_and, ladderStep, bne_eq_false_iff_eq] at hwithdraws
          rw [← hwithdraws]
        · rfl
      rw [hsame] at hack
      refine .quiet _ _ _ hack fun e he => ?_
      rw [if_neg Bool.false_ne_true, List.append_nil] at he
      rcases List.mem_append.mp he with he | he
      · exact hbefore e he
      · exact hafter e he

theorem trackerSlotReset_acknowledges (id : ℕ) (t : Tdma) :
    Acknowledges t.loss (t.trackerSlotReset id).loss := by
  rw [trackerSlotReset_loss]
  exact ⟨rfl, .inl rfl, rfl, rfl, rfl, rfl, rfl, rfl⟩

/-- **What a step does to the controller.** -/
theorem lossStep (hclear : t.loss.capLevel ≠ t.loss.publishedCapLevel → t.loss.WindowsClear)
    (hstep : tdmaStep t op = some (t', es)) : LossStep t op t'.loss es := by
  have hforgotten : ∀ ids : List ℕ, ∀ e ∈ ids.map TdmaEvent.forgotten, IsQuiet e := by
    intro ids e he pools
    obtain ⟨id, -, rfl⟩ := List.mem_map.mp he
    exact ⟨rfl, trivial⟩
  cases tdmaStep_rel hstep with
  | advance | stutter | readClock | callRecalculate | restoreStore =>
    exact .quiet _ _ _ (.refl _) nofun
  | observe =>
    refine .quiet _ _ _ ?_ fun e he pools => ?_
    · rw [tdmaShadowObserve_loss]
      exact .refl _
    · obtain rfl := List.mem_singleton.mp he
      exact ⟨rfl, trivial⟩
  | update =>
    refine .quiet _ _ _ (.refl _) fun e he pools => ?_
    obtain rfl := List.mem_singleton.mp he
    exact ⟨rfl, trivial⟩
  | pass forced diagnosticsReset modes => exact lossStep_pass forced diagnosticsReset modes hclear
  | lossTick input htask => exact .tick input htask
  | autoLossInvalidate => exact .quiet _ _ _ ⟨rfl, .inl rfl, rfl, rfl, rfl, rfl, rfl, rfl⟩ nofun
  | resetLossStats =>
    exact .restart _ _ _ [] [] _ (windowsClear_resetWindows t.loss) rfl (.inr (.inr rfl))
      ⟨rfl, .inl rfl, rfl, rfl, rfl, rfl, rfl, rfl⟩ nofun (fun _ => ⟨rfl, trivial⟩) nofun
  | addPair => exact .quiet _ _ _ (trackerSlotReset_acknowledges _ _) (hforgotten [_])
  | popPair =>
    exact .quiet _ _ _ (trackerSlotReset_acknowledges _ { t with roster := t.withoutLast })
      (hforgotten [_])
  | clear => exact .quiet _ _ _ (cleared_loss t) (hforgotten _)

end Step

end Tdma

/-! ## The controller and the judged pools -/

/-- What holds between the controller and the pools judged since the windows started again. -/
structure LossCore (pools : List JudgedPool) (c : LossController) : Prop where
  level_le : c.capLevel ≤ tdmaCapLevelMax
  published_le : c.publishedCapLevel ≤ tdmaCapLevelMax
  trigger : Credits aboveTrigger pools c.triggerStreakTicks
  recover : Credits belowRecover pools c.recoverStreakTicks
  probe : Credits belowProbe pools c.probeStreakTicks
  /-- A requested level that is not published yet goes with fresh windows. -/
  unpublished_clear : c.capLevel ≠ c.publishedCapLevel → c.WindowsClear

section Core

variable {pools : List JudgedPool} {c c' : LossController}

theorem LossCore.acknowledge (h : LossCore pools c) (hack : Acknowledges c c') : LossCore pools c' where
  level_le := hack.capLevel ▸ h.level_le
  published_le := by
    rcases hack.published with heq | heq <;> rw [heq]
    · exact h.published_le
    · exact h.level_le
  trigger := hack.trigger ▸ h.trigger
  recover := hack.recover ▸ h.recover
  probe := hack.probe ▸ h.probe
  unpublished_clear hlevel := by
    rw [hack.capLevel] at hlevel
    rcases hack.published with heq | heq <;> rw [heq] at hlevel
    · have hclear := h.unpublished_clear hlevel
      exact ⟨hack.trigger.trans hclear.trigger, hack.recover.trans hclear.recover,
        hack.probe.trans hclear.probe, hack.received.trans hclear.received,
        hack.gaps.trans hclear.gaps, hack.ticks.trans hclear.ticks⟩
    · exact absurd rfl hlevel

/-- Fresh windows are covered by every history. -/
theorem LossCore.of_clear (hlevel : c.capLevel ≤ tdmaCapLevelMax)
    (hpublished : c.publishedCapLevel ≤ tdmaCapLevelMax) (hclear : c.WindowsClear) :
    LossCore pools c where
  level_le := hlevel
  published_le := hpublished
  trigger := hclear.trigger ▸ credits_zero
  recover := hclear.recover ▸ credits_zero
  probe := hclear.probe ▸ credits_zero
  unpublished_clear _ := hclear

/-- The streaks ask for a raise only after five credited ticks of loss. -/
theorem levelChange_raise (h : c.levelChange = .raise) :
    5 ≤ c.triggerStreakTicks ∧ c.capLevel < tdmaCapLevelMax := by
  unfold levelChange at h
  split at h
  case isTrue hraise => simpa [tdmaLossTriggerTicks] using hraise
  case isFalse => split at h <;> cases h

/-- The streaks ask for a lower level only after ten clean or sixty nearly clean credited ticks. -/
theorem levelChange_lower (h : c.levelChange = .lower) :
    (10 ≤ c.recoverStreakTicks ∨ 60 ≤ c.probeStreakTicks) ∧ 0 < c.capLevel := by
  unfold levelChange at h
  split at h
  case isTrue => cases h
  case isFalse =>
    split at h
    case isTrue hlower => simpa [tdmaLossRecoverTicks, tdmaLossProbeTicks] using hlower
    case isFalse => cases h

/-- Judging a pool keeps the relation, and a change it makes is justified. -/
theorem LossCore.judge (h : LossCore pools c) (hpublished : c.capLevel = c.publishedCapLevel) :
    LossCore (windowEvent pools (.ticked c.judgePool.2)) c.judgePool.1 ∧
      ChangeJustified pools (.ticked c.judgePool.2) := by
  have htrigger := h.trigger.credit ⟨c.poolReceived, c.poolGaps, c.poolTicks⟩ tdmaLossTriggerTicks
  have hrecover := h.recover.credit ⟨c.poolReceived, c.poolGaps, c.poolTicks⟩ tdmaLossRecoverTicks
  have hprobe := h.probe.credit ⟨c.poolReceived, c.poolGaps, c.poolTicks⟩ tdmaLossProbeTicks
  have hlevel := h.level_le
  have hpub := h.published_le
  have hjudge : c.judgePool = ((c.creditPool c.poolSamples).applyChange
      (c.creditPool c.poolSamples).levelChange,
    .judged c.poolReceived c.poolGaps c.poolTicks (c.creditPool c.poolSamples).levelChange) := rfl
  rw [hjudge]
  cases hchange : (c.creditPool c.poolSamples).levelChange with
  | keep =>
    refine ⟨⟨hlevel, hpub, htrigger, hrecover, hprobe, fun hnot => ?_⟩, trivial⟩
    exact absurd hpublished hnot
  | raise =>
    obtain ⟨hstreak, hroom⟩ := levelChange_raise hchange
    exact ⟨.of_clear (Nat.succ_le_of_lt hroom) hpub (windowsClear_resetWindows _),
      htrigger.mono hstreak⟩
  | lower =>
    obtain ⟨hstreak, -⟩ := levelChange_lower hchange
    refine ⟨.of_clear ((Nat.sub_le _ _).trans hlevel) hpub (windowsClear_resetWindows _), ?_⟩
    rcases hstreak with hclean | hnearly
    · exact .inl (hrecover.mono hclean)
    · exact .inr (hprobe.mono hnearly)

end Core

namespace Tdma

section Tick

variable {pools : List JudgedPool} (input : LossTickInput) {t : Tdma}

/-- The loop of a tick leaves the streaks and a level in range. -/
theorem tickStart_level_le (h : LossCore pools t.loss) :
    (t.tickStart input).capLevel ≤ tdmaCapLevelMax := by
  simp only [tickStart]
  split
  · exact h.published_le
  · exact h.level_le

/-- **A tick keeps the relation**, and a change it makes is justified. -/
theorem lossCore_tick (h : LossCore pools t.loss) :
    LossCore (windowEvent pools (.ticked (t.lossControllerUpdate input).2))
        (t.lossControllerUpdate input).1 ∧
      ChangeJustified pools (.ticked (t.lossControllerUpdate input).2) := by
  have hlevel := tickStart_level_le input h
  have hresult := lossControllerUpdate_result input t
  generalize t.lossControllerUpdate input = r at hresult ⊢
  cases hresult with
  | excluded | rendezvous | unpublished | idle =>
    exact ⟨.of_clear hlevel h.published_le (windowsClear_resetWindows _), trivial⟩
  | pooled c hin hequal hc =>
    have hcap := tickStart_capLevel hin
    subst hc
    refine ⟨⟨hlevel, h.published_le, h.trigger, h.recover, h.probe, fun hnot => ?_⟩, trivial⟩
    exact absurd (hcap.trans hequal) hnot
  | judged c hin hequal hc =>
    have hcap := tickStart_capLevel hin
    subst hc
    refine LossCore.judge ⟨hlevel, h.published_le, h.trigger, h.recover, h.probe, fun hnot => ?_⟩
      (hcap.trans hequal)
    exact absurd (hcap.trans hequal) hnot

end Tick

/-! ## Every run -/

/-- The judged pools over quiet events. -/
theorem judgedSince_quiet {trace es : List TdmaEvent} (h : ∀ e ∈ es, IsQuiet e) :
    judgedSince (trace ++ es) = judgedSince trace := by
  rw [judgedSince_append]
  generalize judgedSince trace = pools
  induction es with
  | nil => rfl
  | cons e es ih =>
    rw [List.foldl_cons, (h e List.mem_cons_self pools).1]
    exact ih fun e' he' => h e' (List.mem_cons_of_mem _ he')

theorem judgedSince_restart {trace : List TdmaEvent} {e : TdmaEvent} (h : IsRestart e) :
    judgedSince (trace ++ [e]) = [] := by
  rw [judgedSince_append]
  exact (h _).1

theorem eachAfter_quiet {trace es : List TdmaEvent} (h : EachAfter LevelChangeLaw trace)
    (hes : ∀ e ∈ es, IsQuiet e) : EachAfter LevelChangeLaw (trace ++ es) :=
  h.append fun earlier e he => (hes e he (judgedSince earlier)).2

/-- The invariant that carries the law of level changes through a run. -/
structure LossHistory (trace : List TdmaEvent) (t : Tdma) : Prop where
  core : LossCore (judgedSince trace) t.loss
  law : EachAfter LevelChangeLaw trace

theorem LossHistory.step {trace es : List TdmaEvent} {t t' : Tdma} {op : TdmaOp}
    (h : LossHistory trace t) (hstep : tdmaStep t op = some (t', es)) :
    LossHistory (trace ++ es) t' := by
  have hloss := lossStep h.core.unpublished_clear hstep
  generalize hc : t'.loss = c at hloss
  cases hloss with
  | quiet _ _ _ hack hquiet =>
    refine ⟨?_, eachAfter_quiet h.law hquiet⟩
    rw [hc, judgedSince_quiet hquiet]
    exact h.core.acknowledge hack
  | restart _ d _ before after e hclear hpublished hlevel hack hbefore hrestart hafter =>
    have hlawful := eachAfter_quiet h.law hbefore
    rw [← List.append_assoc, ← List.append_assoc]
    refine ⟨?_, eachAfter_quiet (eachAfter_snoc.mpr ⟨hlawful, (hrestart _).2⟩) hafter⟩
    rw [hc, judgedSince_quiet hafter, judgedSince_restart hrestart]
    refine LossCore.acknowledge (.of_clear ?_ (hpublished ▸ h.core.published_le) hclear) hack
    rcases hlevel with hzero | hwithdrawn | hkept
    · exact hzero ▸ Nat.zero_le _
    · exact hwithdrawn ▸ h.core.published_le
    · exact hkept ▸ h.core.level_le
  | tick input =>
    obtain ⟨hcore, hchange⟩ := lossCore_tick input h.core
    refine ⟨?_, eachAfter_snoc.mpr ⟨h.law, hchange⟩⟩
    rw [hc, judgedSince_append]
    exact hcore

theorem lossHistory_of_run {trace : List TdmaEvent} {t : Tdma} (h : tdmaSystem.Run trace t) :
    LossHistory trace t := by
  refine h.history_invariant (P := LossHistory) ⟨?_, eachAfter_nil⟩
    fun _ _ _ _ _ hs _ hstep => hs.step hstep
  exact .of_clear (Nat.zero_le _) (Nat.zero_le _) ⟨rfl, rfl, rfl, rfl, rfl, rfl⟩

end Tdma

end SlimeReceiver
