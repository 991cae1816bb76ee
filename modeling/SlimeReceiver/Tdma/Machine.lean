import SlimeReceiver.Library.EventSystem
import SlimeReceiver.Tdma.Layout
import SlimeReceiver.Tdma.LossController
import SlimeReceiver.Tdma.Roster

/-! # The scheduler as a system

The radio interrupt, the statistics thread and the administrative callers work on the scheduler
in critical sections that may interleave freely, except that `tracker_store_lock` is held from
one critical section to the next inside an operation. Each critical section is one step;
`storeTask` says who holds the lock and where.

* **`TdmaOp`** — the steps; **`TdmaEvent`** — what they report.
* **`tdmaStep`**, **`tdmaSystem`** — the system.
* **`TdmaRel`** — the same steps as a relation with one named case each, and `tdmaStep_rel`,
  through which every invariant proof goes. -/

namespace SlimeReceiver

/-- The critical sections of the scheduler. -/
inductive TdmaOp
  /-- Time passes. -/
  | advance (ms : ℕ)
  /-- The radio delivers valid evidence of a tracker. -/
  | observe (trackerId : ℕ) (evidence : ShadowEvidence)
  /-- The statistics thread takes the lock and reads the clock for `tdma_shadow_update`. -/
  | readClock
  /-- The critical section of `tdma_shadow_update`. -/
  | update
  /-- The statistics thread calls `tdma_recalculate(false)`. -/
  | callRecalculate
  /-- One pass of `tdma_recalculate`. -/
  | pass (modes : Tdma.RecalculateModes)
  /-- `tdma_loss_controller_tick`. -/
  | lossTick (input : LossTickInput)
  /-- `esb_auto_loss_invalidate` on behalf of another subsystem. -/
  | autoLossInvalidate
  /-- The part of `esb_reset_all_stats` after its critical section. -/
  | resetLossStats
  | addPair (addr : ℕ) (written : Bool)
  | popPair (written : Bool)
  | clear (written : Bool)
  | restoreStore (count : ℕ) (addresses : ℕ → ℕ)

/-- What a publication did and the facts its decision rested on. -/
structure Publication where
  time : ℕ
  forced : Bool
  maskChanged : Bool
  testAllLayout : Bool
  ladderStep : Bool
  /-- `tdma_membership_deadline_armed` and `tdma_membership_deadline_ms` at the decision. -/
  deadlineArmed : Bool
  deadlineMs : BitVec 32
  members : ℕ
  epochBefore : BitVec 8
  epochAfter : BitVec 8
  deriving DecidableEq, Repr

/-- The visible events of the scheduler. -/
inductive TdmaEvent
  /-- Evidence of a stored tracker was recorded at this uptime. -/
  | observed (trackerId time : ℕ)
  /-- The slot was reset. -/
  | forgotten (trackerId : ℕ)
  /-- A merge with the clock read at `readAt`, executed at `ranAt`. -/
  | merged (readAt ranAt : ℕ)
  | published (p : Publication)
  /-- A pass found the membership changed: level and windows start again. -/
  | membershipReset
  /-- A pass found a collection running and withdrew the unpublished level. -/
  | levelWithdrawn
  | ticked (outcome : TickOutcome)
  /-- The statistics were reset. -/
  | statsReset
  deriving DecidableEq, Repr

namespace Tdma

/-- The record of a publication decided in state `t`. -/
def publication (forced : Bool) (modes : RecalculateModes) (t : Tdma) : Publication where
  time := t.uptime
  forced := forced
  maskChanged := t.maskChanged
  testAllLayout := modes.testAllEnabled
  ladderStep := t.ladderStep
  deadlineArmed := t.shadow.membershipDeadlineArmed
  deadlineMs := t.shadow.membershipDeadlineMs
  members := t.activeCount
  epochBefore := t.layout.configEpoch
  epochAfter := (t.publish modes).layout.configEpoch

/-- The events of a pass, in the order in which it does things. -/
def passEvents (forced diagnosticsReset : Bool) (modes : RecalculateModes) (t : Tdma) :
    List TdmaEvent :=
  let d := t.decided forced diagnosticsReset modes
  (if t.needsMerge forced diagnosticsReset then [TdmaEvent.merged t.uptime t.uptime] else []) ++
    (if d.maskChanged then [.membershipReset]
      else if modes.collecting && t.ladderStep then [TdmaEvent.levelWithdrawn] else []) ++
    (if (t.recalculatePass forced diagnosticsReset modes).2 = .published then
      [.published (d.publication forced modes)] else [])

/-- The lock a pass leaves behind. -/
def taskAfter (forced : Bool) (outcome : PassOutcome) : StoreTask :=
  match outcome with
  | .again => .recalculate forced true
  | .returned | .published => .idle

/-- What a reset of the loss statistics leaves. -/
def resetLossStats (t : Tdma) : Tdma :=
  { t with loss := { t.loss with
      tdmaPrevRecv := fun _ => 0
      tdmaPrevGaps := fun _ => 0
      tdmaPrevRestarts := fun _ => 0 }.resetWindows }

end Tdma

open Tdma in
/-- One step of the scheduler. -/
def tdmaStep (t : Tdma) (op : TdmaOp) : Option (Tdma × List TdmaEvent) :=
  match op, t.storeTask with
  | .advance ms, _ => some ({ t with uptime := t.uptime + ms }, [])
  | .observe trackerId evidence, _ =>
    some (t.tdmaShadowObserve trackerId evidence,
      if trackerId < t.roster.storedTrackers ∧ trackerId < maxTrackers then
        [.observed trackerId t.uptime] else [])
  | .readClock, .idle => some ({ t with storeTask := .update t.uptime }, [])
  | .update, .update readAt =>
    some ({ t.merged (stamp readAt) with storeTask := .idle }, [.merged readAt t.uptime])
  | .callRecalculate, .idle => some ({ t with storeTask := .recalculate false false }, [])
  | .pass modes, .recalculate forced diagnosticsReset =>
    some ({ (t.recalculatePass forced diagnosticsReset modes).1 with
        storeTask := taskAfter forced (t.recalculatePass forced diagnosticsReset modes).2 },
      t.passEvents forced diagnosticsReset modes)
  | .lossTick input, .idle =>
    some ({ t with loss := (t.lossControllerUpdate input).1 },
      [.ticked (t.lossControllerUpdate input).2])
  | .autoLossInvalidate, _ =>
    some ({ t with loss := { t.loss with rxDiscontinuityPending := true } }, [])
  | .resetLossStats, _ => some (t.resetLossStats, [.statsReset])
  | .addPair addr written, .idle =>
    some ((t.esbAddPair addr written).2,
      if (t.esbAddPair addr written).2.roster.storedTrackers ≠ t.roster.storedTrackers then
        [.forgotten t.roster.storedTrackers] else [])
  | .popPair written, .idle =>
    some ((t.esbPopPair written).2,
      if (t.esbPopPair written).2.roster.storedTrackers ≠ t.roster.storedTrackers then
        [.forgotten (t.roster.storedTrackers - 1)] else [])
  | .clear written, .idle =>
    some ((t.esbClear written).2,
      if (t.esbClear written).2.storeTask = .recalculate true false then
        (List.range maxTrackers).map .forgotten else [])
  | .restoreStore count addresses, .idle => some (t.trackerStoreRestore count addresses, [])
  | _, _ => none

/-- The scheduler, from the reset of the receiver. -/
def tdmaSystem : EventSystem Tdma TdmaOp TdmaEvent where
  init := .init
  step := tdmaStep

/-! ## Inversion -/

open Tdma in
/-- The steps of the scheduler as a relation, one case for each thing that can happen. -/
inductive TdmaRel (t : Tdma) : TdmaOp → Tdma → List TdmaEvent → Prop
  | advance (ms : ℕ) : TdmaRel t (.advance ms) { t with uptime := t.uptime + ms } []
  | observe (trackerId : ℕ) (evidence : ShadowEvidence) :
      trackerId < t.roster.storedTrackers → TdmaRel t (.observe trackerId evidence)
        (t.tdmaShadowObserve trackerId evidence) [.observed trackerId t.uptime]
  /-- An observation or a roster operation that changed nothing. -/
  | stutter (op : TdmaOp) : (∀ modes, op ≠ .pass modes) → TdmaRel t op t []
  | readClock : t.storeTask = .idle →
      TdmaRel t .readClock { t with storeTask := .update t.uptime } []
  | update (readAt : ℕ) : t.storeTask = .update readAt → TdmaRel t .update
      { t.merged (stamp readAt) with storeTask := .idle } [.merged readAt t.uptime]
  | callRecalculate : t.storeTask = .idle →
      TdmaRel t .callRecalculate { t with storeTask := .recalculate false false } []
  | pass (forced diagnosticsReset : Bool) (modes : RecalculateModes) :
      t.storeTask = .recalculate forced diagnosticsReset → TdmaRel t (.pass modes)
        { (t.recalculatePass forced diagnosticsReset modes).1 with
          storeTask := taskAfter forced (t.recalculatePass forced diagnosticsReset modes).2 }
        (t.passEvents forced diagnosticsReset modes)
  | lossTick (input : LossTickInput) : t.storeTask = .idle → TdmaRel t (.lossTick input)
      { t with loss := (t.lossControllerUpdate input).1 } [.ticked (t.lossControllerUpdate input).2]
  | autoLossInvalidate : TdmaRel t .autoLossInvalidate
      { t with loss := { t.loss with rxDiscontinuityPending := true } } []
  | resetLossStats : TdmaRel t .resetLossStats t.resetLossStats [.statsReset]
  | addPair (addr : ℕ) (written : Bool) (hroom : t.roster.storedTrackers < maxTrackers) :
      t.storeTask = .idle → t.roster.storeReady = true → TdmaRel t (.addPair addr written)
        { t.trackerSlotReset t.roster.storedTrackers with
          roster := { t.roster with
            storedTrackers := t.roster.storedTrackers + 1
            storedTrackerAddr :=
              Function.update t.roster.storedTrackerAddr t.roster.storedTrackers addr
            stored_le := hroom } }
        [.forgotten t.roster.storedTrackers]
  | popPair (written : Bool) : t.storeTask = .idle → t.roster.storedTrackers ≠ 0 →
      TdmaRel t (.popPair written)
        { trackerSlotReset (t.roster.storedTrackers - 1) { t with roster := t.withoutLast } with
          storeTask := .recalculate true false }
        [.forgotten (t.roster.storedTrackers - 1)]
  | clear (written : Bool) : t.storeTask = .idle → TdmaRel t (.clear written)
      { t.cleared with storeTask := .recalculate true false }
      ((List.range maxTrackers).map .forgotten)
  | restoreStore (count : ℕ) (addresses : ℕ → ℕ) (hcount : count ≤ maxTrackers) :
      t.storeTask = .idle → t.roster.storeReady = false →
      TdmaRel t (.restoreStore count addresses) { t with roster :=
        { storedTrackers := count
          storedTrackerAddr := addresses
          storeReady := true
          stored_le := hcount } } []

/-- **Inversion of a step.** -/
theorem tdmaStep_rel {t t' : Tdma} {op : TdmaOp} {es : List TdmaEvent}
    (h : tdmaStep t op = some (t', es)) : TdmaRel t op t' es := by
  unfold tdmaStep at h
  split at h
  case h_1 => cases h; exact .advance _
  case h_2 trackerId evidence =>
    rw [Option.some.injEq, Prod.mk.injEq] at h
    obtain ⟨rfl, rfl⟩ := h
    by_cases hid : trackerId < t.roster.storedTrackers ∧ trackerId < maxTrackers
    · rw [if_pos hid]
      exact .observe _ _ hid.1
    · have hsame : t.tdmaShadowObserve trackerId evidence = t := if_neg hid
      rw [if_neg hid, hsame]
      exact .stutter _ (by rintro _ ⟨⟩)
  case h_3 htask => cases h; exact .readClock htask
  case h_4 readAt htask => cases h; exact .update readAt htask
  case h_5 htask => cases h; exact .callRecalculate htask
  case h_6 modes forced diagnosticsReset htask => cases h; exact .pass _ _ modes htask
  case h_7 input htask => cases h; exact .lossTick input htask
  case h_8 => cases h; exact .autoLossInvalidate
  case h_9 => cases h; exact .resetLossStats
  case h_10 addr written htask =>
    rw [Option.some.injEq, Prod.mk.injEq] at h
    obtain ⟨rfl, rfl⟩ := h
    rcases t.esbAddPair_cases addr written with hsame | ⟨hready, hroom, hadded⟩
    · rw [hsame, if_neg (by simp)]
      exact .stutter _ (by rintro _ ⟨⟩)
    · rw [hadded, if_pos (by simp)]
      exact .addPair addr written hroom htask hready
  case h_11 written htask =>
    rw [Option.some.injEq, Prod.mk.injEq] at h
    obtain ⟨rfl, rfl⟩ := h
    rcases t.esbPopPair_cases written with hsame | ⟨hnonempty, hremoved⟩
    · rw [hsame, if_neg (by simp)]
      exact .stutter _ (by rintro _ ⟨⟩)
    · have hfewer : t.roster.storedTrackers - 1 ≠ t.roster.storedTrackers := by omega
      rw [hremoved, if_pos (by simpa [Tdma.withoutLast] using hfewer)]
      exact .popPair written htask hnonempty
  case h_12 written htask =>
    rw [Option.some.injEq, Prod.mk.injEq] at h
    obtain ⟨rfl, rfl⟩ := h
    rcases t.esbClear_cases written with hsame | hcleared
    · rw [hsame, if_neg (by simp [htask])]
      exact .stutter _ (by rintro _ ⟨⟩)
    · rw [hcleared, if_pos rfl]
      exact .clear written htask
  case h_13 count addresses htask =>
    cases h
    unfold Tdma.trackerStoreRestore
    split
    · exact .stutter _ (by rintro _ ⟨⟩)
    · rename_i hready
      split
      · rename_i hcount
        exact .restoreStore count addresses hcount htask (by simpa using hready)
      · exact .stutter _ (by rintro _ ⟨⟩)
  case h_14 => cases h

/-! ## An example run -/

/-- Two stored trackers are heard and the statistics thread recalculates, up to the last pass. -/
def Tdma.twoHeard : List TdmaOp :=
  [.restoreStore 2 fun i => i + 1, .observe 0 .ping, .observe 1 .data, .advance 200,
    .callRecalculate, .pass ⟨false, false⟩]

/-- The publication the next pass after `twoHeard` makes. -/
def Tdma.twoHeardPublication : Publication where
  time := 200
  forced := false
  maskChanged := true
  testAllLayout := false
  ladderStep := false
  deadlineArmed := true
  deadlineMs := 101
  members := 2
  epochBefore := 0
  epochAfter := 1

end SlimeReceiver
