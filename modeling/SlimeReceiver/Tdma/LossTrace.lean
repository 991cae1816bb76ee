import SlimeReceiver.Tdma.LossHistory
import Mathlib.Algebra.BigOperators.Intervals

/-! # The law of the loss controller

* **`TickChange`** — what one tick can do to the requested level.
* **`NoOverflow`** — the sums, pools and streaks of a tick are the exact numbers.
* **`PoolBounded`** — the invariant that keeps the pool small, on runs whose ticks are bounded.
* **`tdma_loss_trace`** — the levels, the history of their changes and the arithmetic, for every
  run. -/

namespace SlimeReceiver

open LossController

namespace Tdma

/-! ## The level at a tick -/

/-- The requested level after a tick: unchanged, back at the published level while a collection is
active, or one step away from the published level outside every excluded mode. -/
def TickChange (input : LossTickInput) (t t' : Tdma) (es : List TdmaEvent) : Prop :=
  t'.loss.capLevel = t.loss.capLevel ∨
  (input.collecting = true ∧ t'.loss.capLevel = t.loss.publishedCapLevel) ∨
  ((t.loss.capLevel = t.loss.publishedCapLevel ∧ input.collecting = false ∧
      input.testAllInForce = false) ∧
    ∃ received gaps ticks,
      (t'.loss.capLevel = t.loss.capLevel + 1 ∧
        es = [.ticked (.judged received gaps ticks .raise)]) ∨
      (t'.loss.capLevel + 1 = t.loss.capLevel ∧
        es = [.ticked (.judged received gaps ticks .lower)]))

section Change

variable {input : LossTickInput} {t : Tdma}

/-- A tick that is not excluded runs outside collection and test-all. -/
theorem modes_of_not_excluded (h : t.tickExcluded input = false) :
    input.collecting = false ∧ input.testAllInForce = false := by
  simp only [tickExcluded, Bool.or_eq_false_iff] at h
  exact ⟨h.1.1.2, h.2⟩

theorem tickStart_capLevel_or (input : LossTickInput) (t : Tdma) :
    (t.tickStart input).capLevel = t.loss.capLevel ∨
      input.collecting = true ∧ (t.tickStart input).capLevel = t.loss.publishedCapLevel := by
  simp only [tickStart]
  cases input.collecting with
  | true => exact .inr ⟨rfl, rfl⟩
  | false => exact .inl rfl

/-- **The level at a tick.** -/
theorem tickChange (input : LossTickInput) (t : Tdma) :
    TickChange input t { t with loss := (t.lossControllerUpdate input).1 }
      [.ticked (t.lossControllerUpdate input).2] := by
  have hstart := tickStart_capLevel_or input t
  have hresult := lossControllerUpdate_result input t
  generalize t.lossControllerUpdate input = r at hresult ⊢
  cases hresult with
  | excluded | rendezvous | unpublished | idle =>
    rcases hstart with hkept | hwithdrawn
    · exact .inl hkept
    · exact .inr (.inl hwithdrawn)
  | pooled c hin _ hc =>
    subst hc
    exact .inl (tickStart_capLevel hin)
  | judged c hin hequal hc =>
    have hcap : c.capLevel = t.loss.capLevel := by
      subst hc
      exact tickStart_capLevel hin
    obtain ⟨hcollecting, htest⟩ := modes_of_not_excluded hin
    have hjudge : c.judgePool = ((c.creditPool c.poolSamples).applyChange
        (c.creditPool c.poolSamples).levelChange, .judged c.poolReceived c.poolGaps c.poolTicks
          (c.creditPool c.poolSamples).levelChange) := rfl
    rw [hjudge]
    cases hchange : (c.creditPool c.poolSamples).levelChange with
    | keep => exact .inl hcap
    | raise =>
      refine .inr (.inr ⟨⟨hequal, hcollecting, htest⟩, _, _, _, .inl ⟨?_, rfl⟩⟩)
      exact congrArg (· + 1) hcap
    | lower =>
      obtain ⟨-, hpositive⟩ := levelChange_lower hchange
      refine .inr (.inr ⟨⟨hequal, hcollecting, htest⟩, _, _, _, .inr ⟨?_, rfl⟩⟩)
      rw [← hcap]
      exact Nat.sub_add_cancel hpositive

end Change

/-! ## The sums of a tick -/

section Sums

variable (input : LossTickInput) (t : Tdma)

/-- The tracker is a member and its counters went on since the previous tick. -/
def contributes (i : ℕ) : Bool :=
  hasBit t.layout.activeMask i && !(decide (input.received i < t.loss.tdmaPrevRecv i) ||
    decide (input.gaps i < t.loss.tdmaPrevGaps i) ||
    input.restarts i != t.loss.tdmaPrevRestarts i)

/-- Packets of tracker `i` this tick counts. -/
def deltaReceived (i : ℕ) : ℕ :=
  if t.contributes input i then input.received i - t.loss.tdmaPrevRecv i else 0

/-- Gaps of tracker `i` this tick counts. -/
def deltaGaps (i : ℕ) : ℕ :=
  if t.contributes input i then input.gaps i - t.loss.tdmaPrevGaps i else 0

/-- The sums of a tick, as numbers. -/
def exactReceived : ℕ := ∑ i ∈ Finset.range maxTrackers, t.deltaReceived input i
def exactGaps : ℕ := ∑ i ∈ Finset.range maxTrackers, t.deltaGaps input i

/-- No tracker brings more than `B` packets and gaps together into one tick. -/
def DeltasBounded (B : ℕ) : Prop :=
  ∀ i < maxTrackers, t.deltaReceived input i + t.deltaGaps input i ≤ B

instance (B : ℕ) : Decidable (DeltasBounded input t B) :=
  inferInstanceAs (Decidable (∀ i < maxTrackers, _))

variable {input t} {B : ℕ}

/-- One iteration adds the tracker's deltas when nothing wraps, and touches only its counters. -/
theorem tallyTracker_step (input : LossTickInput) {tally : TickTally} {i : ℕ}
    (hrecv : tally.prevRecv i = t.loss.tdmaPrevRecv i)
    (hgaps : tally.prevGaps i = t.loss.tdmaPrevGaps i)
    (hrestarts : tally.prevRestarts i = t.loss.tdmaPrevRestarts i)
    (hfits : tally.tickReceived + tally.tickGaps +
      (t.deltaReceived input i + t.deltaGaps input i) < 2 ^ 32) :
    let next := tallyTracker (t.autoLossSnapshot input) t.layout.activeMask tally i
    next.tickReceived = tally.tickReceived + t.deltaReceived input i ∧
      next.tickGaps = tally.tickGaps + t.deltaGaps input i ∧
      ∀ k ≠ i, next.prevRecv k = tally.prevRecv k ∧ next.prevGaps k = tally.prevGaps k ∧
        next.prevRestarts k = tally.prevRestarts k := by
  have hothers : ∀ k ≠ i, ∀ f : ℕ → ℕ, ∀ v, Function.update f i v k = f k :=
    fun k hk f v => Function.update_of_ne hk v f
  have hframe : ∀ k ≠ i, Function.update tally.prevRecv i (input.received i) k = tally.prevRecv k ∧
      Function.update tally.prevGaps i (input.gaps i) k = tally.prevGaps k ∧
      Function.update tally.prevRestarts i (input.restarts i) k = tally.prevRestarts k :=
    fun k hk => ⟨hothers k hk _ _, hothers k hk _ _, hothers k hk _ _⟩
  simp only [tallyTracker, autoLossSnapshot, hrecv, hgaps, hrestarts]
  split
  case isTrue hmember =>
    have hnone : t.contributes input i = false := by
      simp only [Bool.not_eq_true'] at hmember
      simp [contributes, hmember]
    exact ⟨by simp [deltaReceived, hnone], by simp [deltaGaps, hnone], hframe⟩
  case isFalse hmember =>
    split
    case isTrue hbroken =>
      have hnone : t.contributes input i = false := by
        simp only [contributes, hbroken, Bool.not_true, Bool.and_false]
      exact ⟨by simp [deltaReceived, hnone], by simp [deltaGaps, hnone], hframe⟩
    case isFalse hbroken =>
      have hcontributes : t.contributes input i = true := by
        simp only [Bool.not_eq_true, Bool.not_eq_false'] at hmember hbroken
        simp only [contributes, hmember, hbroken, Bool.not_false, Bool.and_true]
      simp only [deltaReceived, deltaGaps, hcontributes, reduceIte] at hfits ⊢
      have hdelta : (input.received i - t.loss.tdmaPrevRecv i +
          (input.gaps i - t.loss.tdmaPrevGaps i)) % 2 ^ 32 =
          input.received i - t.loss.tdmaPrevRecv i + (input.gaps i - t.loss.tdmaPrevGaps i) :=
        Nat.mod_eq_of_lt (by omega)
      rw [hdelta]
      split
      case isTrue hnothing => exact ⟨by simp only; omega, by simp only; omega, hframe⟩
      case isFalse =>
        exact ⟨Nat.mod_eq_of_lt (by omega), Nat.mod_eq_of_lt (by omega), hframe⟩

/-- The loop up to tracker `n`: the sums so far, and untouched counters from there on. -/
structure TallyBelow (input : LossTickInput) (t : Tdma) (B n : ℕ) (tally : TickTally) : Prop where
  received : tally.tickReceived = ∑ i ∈ Finset.range n, t.deltaReceived input i
  gaps : tally.tickGaps = ∑ i ∈ Finset.range n, t.deltaGaps input i
  bound : tally.tickReceived + tally.tickGaps ≤ n * B
  untouched : ∀ k, n ≤ k → tally.prevRecv k = t.loss.tdmaPrevRecv k ∧
    tally.prevGaps k = t.loss.tdmaPrevGaps k ∧ tally.prevRestarts k = t.loss.tdmaPrevRestarts k

/-- **Exact sums.** The sums of a tick with bounded deltas do not wrap. -/
theorem tickTally_below (hB : 16 * B < 2 ^ 32) (hbounded : DeltasBounded input t B) :
    TallyBelow input t B maxTrackers (t.tickTally input) := by
  refine forBelow_invariant (P := TallyBelow input t B) ?_ fun i tally hi h => ?_
  · exact ⟨by simp, by simp, by simp, fun k _ => ⟨rfl, rfl, rfl⟩⟩
  · have hdelta := hbounded i hi
    have hroom : (i + 1) * B ≤ 16 * B := Nat.mul_le_mul_right _ hi
    have hsplit : (i + 1) * B = i * B + B := Nat.succ_mul i B
    have hbound := h.bound
    obtain ⟨hrecv, hgaps, hrestarts⟩ := h.untouched i le_rfl
    obtain ⟨hreceived', hgaps', hothers⟩ :=
      tallyTracker_step input hrecv hgaps hrestarts (by omega)
    refine ⟨?_, ?_, ?_, fun k hk => ?_⟩
    · rw [hreceived', h.received, Finset.sum_range_succ]
    · rw [hgaps', h.gaps, Finset.sum_range_succ]
    · rw [hreceived', hgaps']
      omega
    · obtain ⟨hrecv', hgaps', hrestarts'⟩ := hothers k (Nat.ne_of_gt hk)
      rw [hrecv', hgaps', hrestarts']
      exact h.untouched k (Nat.le_of_lt hk)

end Sums

/-! ## The pool -/

/-- The pool is too small to judge, holds at least one sample per tick, and the streaks are
capped. -/
structure PoolBounded (c : LossController) : Prop where
  samples : c.poolReceived + c.poolGaps < tdmaLossMinSamples
  ticks : c.poolTicks ≤ c.poolReceived + c.poolGaps
  trigger : c.triggerStreakTicks ≤ tdmaLossTriggerTicks
  recover : c.recoverStreakTicks ≤ tdmaLossRecoverTicks
  probe : c.probeStreakTicks ≤ tdmaLossProbeTicks

/-- The step is no tick, or a tick with bounded deltas. -/
def TicksBounded (B : ℕ) (t : Tdma) (op : TdmaOp) : Prop :=
  ∀ input, op = .lossTick input → DeltasBounded input t B

/-- What a tick computes, were the numbers unbounded: the sums are the exact sums, no word holding
a pool or its samples wraps, no byte counting ticks or a streak wraps, and neither do the products
that are compared. -/
structure NoOverflow (input : LossTickInput) (t : Tdma) : Prop where
  received : (t.tickTally input).tickReceived = t.exactReceived input
  gaps : (t.tickTally input).tickGaps = t.exactGaps input
  samples : (t.loss.poolReceived + t.exactReceived input) +
    (t.loss.poolGaps + t.exactGaps input) < 2 ^ 32
  poolTicks : t.loss.poolTicks + 1 < 2 ^ 8
  trigger : t.loss.triggerStreakTicks + (t.loss.poolTicks + 1) < 2 ^ 8
  recover : t.loss.recoverStreakTicks + (t.loss.poolTicks + 1) < 2 ^ 8
  probe : t.loss.probeStreakTicks + (t.loss.poolTicks + 1) < 2 ^ 8
  scaled : (t.loss.poolGaps + t.exactGaps input) * 1000 < 2 ^ 64
  threshold : tdmaLossTriggerPermille * ((t.loss.poolReceived + t.exactReceived input) +
    (t.loss.poolGaps + t.exactGaps input)) < 2 ^ 64

section Pool

variable {c c' : LossController} {input : LossTickInput} {t : Tdma} {B : ℕ}

theorem PoolBounded.of_clear (h : c.WindowsClear) : PoolBounded c := by
  refine ⟨?_, ?_, ?_, ?_, ?_⟩
  · rw [h.received, h.gaps]
    decide
  · rw [h.ticks]
    exact Nat.zero_le _
  · exact h.trigger ▸ Nat.zero_le _
  · exact h.recover ▸ Nat.zero_le _
  · exact h.probe ▸ Nat.zero_le _

theorem PoolBounded.acknowledge (h : PoolBounded c) (hack : Acknowledges c c') : PoolBounded c' where
  samples := by rw [hack.received, hack.gaps]; exact h.samples
  ticks := by rw [hack.ticks, hack.received, hack.gaps]; exact h.ticks
  trigger := hack.trigger ▸ h.trigger
  recover := hack.recover ▸ h.recover
  probe := hack.probe ▸ h.probe

theorem creditStreak_le (counts : Bool) (streak ticks limit : ℕ) :
    creditStreak counts streak ticks limit ≤ limit := by
  unfold creditStreak
  split
  · exact min_le_right _ _
  · exact Nat.zero_le _

/-- A judged pool is empty and its streaks are capped. -/
theorem poolBounded_judgePool (c : LossController) : PoolBounded c.judgePool.1 := by
  change PoolBounded ((c.creditPool c.poolSamples).applyChange (c.creditPool c.poolSamples).levelChange)
  cases (c.creditPool c.poolSamples).levelChange with
  | keep =>
    have hempty : 0 + 0 < tdmaLossMinSamples := by decide
    exact ⟨hempty, le_rfl, creditStreak_le _ _ _ _, creditStreak_le _ _ _ _,
      creditStreak_le _ _ _ _⟩
  | raise | lower => exact .of_clear (windowsClear_resetWindows _)

/-- **No overflow.** From a bounded pool a tick with bounded deltas computes exactly. -/
theorem PoolBounded.noOverflow (h : PoolBounded t.loss) (hB : 16 * B + 99 < 2 ^ 32)
    (hbounded : DeltasBounded input t B) : NoOverflow input t := by
  have hsums := tickTally_below (by omega) hbounded
  have hreceived : (t.tickTally input).tickReceived = t.exactReceived input := hsums.received
  have hgaps : (t.tickTally input).tickGaps = t.exactGaps input := hsums.gaps
  have hbound : (t.tickTally input).tickReceived + (t.tickTally input).tickGaps ≤ 16 * B :=
    hsums.bound
  rw [hreceived, hgaps] at hbound
  have hsamples := h.samples
  have hticks := h.ticks
  have htrigger := h.trigger
  have hrecover := h.recover
  have hprobe := h.probe
  simp only [tdmaLossMinSamples, tdmaLossTriggerTicks, tdmaLossRecoverTicks, tdmaLossProbeTicks]
    at hsamples htrigger hrecover hprobe
  refine ⟨hreceived, hgaps, ?_, ?_, ?_, ?_, ?_, ?_, ?_⟩
  any_goals omega
  · simp only [tdmaLossTriggerPermille]
    omega

/-- A tick with bounded deltas keeps the pool bounded. -/
theorem PoolBounded.tick (h : PoolBounded t.loss) (hB : 16 * B + 99 < 2 ^ 32)
    (hbounded : DeltasBounded input t B) : PoolBounded (t.lossControllerUpdate input).1 := by
  have hexact := h.noOverflow hB hbounded
  have hresult := lossControllerUpdate_result input t
  generalize t.lossControllerUpdate input = r at hresult ⊢
  cases hresult with
  | excluded | rendezvous | unpublished | idle => exact .of_clear (windowsClear_resetWindows _)
  | judged c => exact poolBounded_judgePool c
  | pooled c _ _ hc hnonempty hsmall =>
    have hreceived := hexact.received
    have hgaps := hexact.gaps
    have hsamples := hexact.samples
    have hpoolTicks := hexact.poolTicks
    have hticks := h.ticks
    rw [hreceived, hgaps] at hnonempty hc
    have hnew : c.poolReceived = t.loss.poolReceived + t.exactReceived input ∧
        c.poolGaps = t.loss.poolGaps + t.exactGaps input ∧
        c.poolTicks = t.loss.poolTicks + 1 := by
      subst hc
      exact ⟨Nat.mod_eq_of_lt (by simp only [tickStart]; omega),
        Nat.mod_eq_of_lt (by simp only [tickStart]; omega), Nat.mod_eq_of_lt hpoolTicks⟩
    obtain ⟨hpool, hpoolGaps, hcount⟩ := hnew
    have hfits : c.poolSamples = c.poolReceived + c.poolGaps := Nat.mod_eq_of_lt (by omega)
    have hstreaks : c.triggerStreakTicks = t.loss.triggerStreakTicks ∧
        c.recoverStreakTicks = t.loss.recoverStreakTicks ∧
        c.probeStreakTicks = t.loss.probeStreakTicks := by
      subst hc
      exact ⟨rfl, rfl, rfl⟩
    obtain ⟨htrigger, hrecover, hprobe⟩ := hstreaks
    refine ⟨hfits ▸ hsmall, ?_, htrigger ▸ h.trigger, hrecover ▸ h.recover, hprobe ▸ h.probe⟩
    -- A pooled tick brings at least one sample.
    change c.poolTicks ≤ c.poolReceived + c.poolGaps
    omega

/-- The pool stays bounded along every run whose ticks are bounded. -/
theorem poolBounded_of_run {trace : List TdmaEvent} (hB : 16 * B + 99 < 2 ^ 32)
    (h : tdmaSystem.RunWhere (TicksBounded B) trace t) : PoolBounded t.loss := by
  have hboth : LossHistory trace t ∧ PoolBounded t.loss := by
    refine h.history_invariant (P := fun trace t => LossHistory trace t ∧ PoolBounded t.loss)
      ⟨lossHistory_of_run .start, .of_clear ⟨rfl, rfl, rfl, rfl, rfl, rfl⟩⟩ ?_
    rintro trace s op s' es ⟨hhistory, hpool⟩ hok hstep
    refine ⟨hhistory.step hstep, ?_⟩
    have hloss := lossStep hhistory.core.unpublished_clear hstep
    generalize s'.loss = c at hloss
    cases hloss with
    | quiet _ _ _ hack => exact hpool.acknowledge hack
    | restart _ _ _ _ _ _ hclear _ _ hack => exact (PoolBounded.of_clear hclear).acknowledge hack
    | tick input => exact hpool.tick hB (hok input rfl)
  exact hboth.2

end Pool

/-! ## The law -/

/-- **The law of the loss controller.** In every reachable state the level lies on the ladder; a
tick changes it as `TickChange` says; in every run the changes obey `LevelChangeLaw`; and where
every tick brings at most `B` packets and gaps of each tracker, `16 B + 99 < 2 ^ 32`, nothing
overflows. -/
theorem tdma_loss_trace :
    (∀ t, tdmaSystem.Reachable t → t.loss.capLevel ≤ tdmaCapLevelMax) ∧
    (∀ t input t' es, tdmaSystem.Reachable t → tdmaStep t (.lossTick input) = some (t', es) →
      TickChange input t t' es) ∧
    (∀ trace t, tdmaSystem.Run trace t → EachAfter LevelChangeLaw trace) ∧
    (∀ B trace t input, 16 * B + 99 < 2 ^ 32 → tdmaSystem.RunWhere (TicksBounded B) trace t →
      DeltasBounded input t B → NoOverflow input t) := by
  refine ⟨fun t hreach => ?_, fun t input t' es _ hstep => ?_, fun trace t hrun => ?_,
    fun B trace t input hB hrun hbounded => ?_⟩
  · obtain ⟨trace, hrun⟩ := hreach
    exact (lossHistory_of_run hrun).core.level_le
  · have htick : some ({ t with loss := (t.lossControllerUpdate input).1 },
        [TdmaEvent.ticked (t.lossControllerUpdate input).2]) = some (t', es) := by
      cases htask : t.storeTask with
      | idle => rw [← hstep]; simp only [tdmaStep, htask]
      | _ => simp only [tdmaStep, htask, reduceCtorEq] at hstep
    rw [Option.some.injEq, Prod.mk.injEq] at htick
    obtain ⟨rfl, rfl⟩ := htick
    exact tickChange input t
  · exact (lossHistory_of_run hrun).law
  · exact (poolBounded_of_run hB hrun).noOverflow hB hbounded

/-! ## A run that raises the level -/

/-- What a tick reads when tracker 0 alone is stored. -/
def loneTick (received gaps : ℕ) (collecting : Bool) : LossTickInput where
  received := fun i => if i = 0 then received else 0
  gaps := fun i => if i = 0 then gaps else 0
  restarts := fun _ => 0
  decisionReadyMask := 1
  subsystemsIdle := true
  collecting := collecting
  radioOccupied := false
  testAllInForce := false

/-- Tracker 0 is published, has one clean tick and then four ticks with every second packet
missing. -/
def lossyTracker : List TdmaOp :=
  [.restoreStore 1 fun i => i + 1, .observe 0 .data, .advance 200, .callRecalculate,
    .pass ⟨false, false⟩, .pass ⟨false, false⟩, .lossTick (loneTick 0 0 false),
    .lossTick (loneTick 100 0 false), .lossTick (loneTick 150 50 false),
    .lossTick (loneTick 200 100 false), .lossTick (loneTick 250 150 false),
    .lossTick (loneTick 300 200 false)]

/-- The test of `TicksBounded`. -/
def ticksBoundedTest (B : ℕ) (t : Tdma) : TdmaOp → Bool
  | .lossTick input => decide (DeltasBounded input t B)
  | _ => true

/-- In the run `lossyTracker` the next lossy tick is the fifth and raises the level. -/
theorem tdma_loss_trace_lossyTracker : ∃ trace t t', tdmaSystem.Run trace t ∧
    tdmaStep t (.lossTick (loneTick 350 250 false)) =
      some (t', [.ticked (.judged 50 50 1 .raise)]) ∧
    t'.loss.capLevel = 1 ∧ t'.loss.capLevel ≤ tdmaCapLevelMax ∧
    TickChange (loneTick 350 250 false) t t' [.ticked (.judged 50 50 1 .raise)] ∧
    EachAfter LevelChangeLaw (trace ++ [.ticked (.judged 50 50 1 .raise)]) ∧
    NoOverflow (loneTick 350 250 false) t := by
  obtain ⟨trace, t, hrun, htest⟩ :=
    (tdmaSystem.restrict (ticksBoundedTest 100)).exists_run_of_replay lossyTracker
      (fun _ (t : Tdma) => decide (DeltasBounded (loneTick 350 250 false) t 100) &&
        (tdmaStep t (.lossTick (loneTick 350 250 false))).any fun r : Tdma × List TdmaEvent =>
          decide (r.2 = [.ticked (.judged 50 50 1 .raise)]) && r.1.loss.capLevel == 1)
      (by decide +kernel)
  simp only [Bool.and_eq_true, decide_eq_true_eq, Option.any_eq_true, beq_iff_eq] at htest
  obtain ⟨hbounded, ⟨t', es⟩, hstep, rfl, hlevel⟩ := htest
  have hok : ∀ s op, ticksBoundedTest 100 s op = true → TicksBounded 100 s op := by
    rintro s op hop input rfl
    exact of_decide_eq_true hop
  have hwhere := EventSystem.runWhere_of_restrict hok hrun
  have hnext := EventSystem.RunWhere.snoc hwhere.run trivial hstep
  refine ⟨trace, t, t', hwhere.run, hstep, hlevel, ?_, ?_, ?_, ?_⟩
  · exact tdma_loss_trace.1 t' ⟨_, hnext⟩
  · exact tdma_loss_trace.2.1 t _ t' _ ⟨_, hwhere.run⟩ hstep
  · exact tdma_loss_trace.2.2.1 _ t' hnext
  · exact tdma_loss_trace.2.2.2 100 trace t _ (by decide) hwhere hbounded

/-- The unamended law fails: in one run the level rises although a clean pool was judged since the
windows started, and the next tick, during a collection, takes the unpublished level back. -/
theorem loss_trace_withdraws_unpublished : ∃ trace t t' t'' es,
    tdmaSystem.Run trace t ∧
    tdmaStep t (.lossTick (loneTick 350 250 false)) =
      some (t', [.ticked (.judged 50 50 1 .raise)]) ∧
    (∃ p ∈ judgedSince trace, aboveTrigger p.gaps p.samples = false) ∧
    tdmaStep t' (.lossTick (loneTick 350 250 true)) = some (t'', es) ∧
    t'.loss.capLevel ≠ t'.loss.publishedCapLevel ∧ t''.loss.capLevel ≠ t'.loss.capLevel := by
  obtain ⟨trace, t, hrun, htest⟩ := tdmaSystem.exists_run_of_replay lossyTracker
    (fun trace (t : Tdma) =>
      ((judgedSince trace).any fun p => !aboveTrigger p.gaps p.samples) &&
        (tdmaStep t (.lossTick (loneTick 350 250 false))).any fun r : Tdma × List TdmaEvent =>
          decide (r.2 = [.ticked (.judged 50 50 1 .raise)]) &&
            ((tdmaStep r.1 (.lossTick (loneTick 350 250 true))).any
              fun r' : Tdma × List TdmaEvent =>
                r.1.loss.capLevel != r.1.loss.publishedCapLevel &&
                  r'.1.loss.capLevel != r.1.loss.capLevel)) (by decide +kernel)
  simp only [Bool.and_eq_true, decide_eq_true_eq, Option.any_eq_true, bne_iff_ne, List.any_eq_true,
    Bool.not_eq_true'] at htest
  obtain ⟨hclean, ⟨t', es⟩, hraise, rfl, ⟨t'', es'⟩, hwithdraw, hunpublished, hchanged⟩ := htest
  exact ⟨trace, t, t', t'', es', hrun, hraise, hclean, hwithdraw, hunpublished, hchanged⟩

end Tdma

end SlimeReceiver
