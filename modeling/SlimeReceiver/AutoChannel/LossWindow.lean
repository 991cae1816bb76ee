import Mathlib.Algebra.Order.BigOperators.Group.Finset
import Mathlib.Tactic.Ring
import SlimeReceiver.Library.EventSystem
import SlimeReceiver.Library.RingBuffer
import SlimeReceiver.Library.WordMask

/-! # The loss window of the channel worker

`loss_baseline`, `discontinuity` and `loss_sample` of `auto_channel.c`, and what else the worker does
to the window.

* **`discontinuity`**, **`fits`** — what a snapshot has to satisfy to extend the window.
* **`lossSample`** — one sample: a new baseline, an interval in the ring, or a verdict.
* **`lossSystem`** — samples with whatever the worker does between them.
* **`references`** — the snapshots since the last baseline, from the history alone.
* **`Windowed`** — the ring holds the intervals between the newest references: the invariant.
* **`loss_verdict`** — a verdict is one about ten consecutive intervals. -/

namespace SlimeReceiver.AutoChannel

open Function (update)

/-! ## Snapshots -/

/-- `ESB_AUTO_LOSS_TRACKERS`. -/
def autoLossTrackers : ℕ := 16

/-- `AC_EVIDENCE_MS`. -/
def acEvidenceMs : ℤ := 1000

/-- `AC_WINDOW_MS`. -/
def acWindowMs : ℤ := 10000

/-- `AC_WINDOW_SAMPLES`. -/
def acWindowSamples : ℕ := 10

/-- `AC_MIN_INFERRED_SAMPLES`. -/
def acMinInferredSamples : ℕ := 100

/-- The counters of a tracker in a snapshot. -/
structure TrackerLoss where
  received : BitVec 32
  gaps : BitVec 32
  restarts : BitVec 32

/-- `struct esb_auto_loss_snapshot`. -/
structure AutoLossSnapshot where
  tracker : ℕ → TrackerLoss
  activeMask : BitVec 32
  resetEpoch : BitVec 32
  readyMask : BitVec 32
  layoutEpoch : BitVec 8
  capPending : Bool
  home : BitVec 8
  eligible : Bool

/-- A tracker between two snapshots: a restart, or a counter that went back. -/
def TrackerLoss.breaks (a b : TrackerLoss) : Bool :=
  a.restarts != b.restarts || decide (b.received < a.received) || decide (b.gaps < a.gaps)

/-- `discontinuity`. -/
def discontinuity (a b : AutoLossSnapshot) : Bool :=
  a.activeMask != b.activeMask || a.resetEpoch != b.resetEpoch || a.layoutEpoch != b.layoutEpoch ||
    a.capPending != b.capPending || a.home != b.home || a.eligible != b.eligible ||
    (List.range autoLossTrackers).any fun i =>
      hasBit b.activeMask i && (a.tracker i).breaks (b.tracker i)

/-- The snapshot can be evidence: the receiver is eligible, has active trackers, which are all ready,
and no cap is pending. -/
def AutoLossSnapshot.ready (s : AutoLossSnapshot) : Bool :=
  s.eligible && s.activeMask != 0 && !s.capPending && s.readyMask &&& s.activeMask == s.activeMask

/-! ## Intervals -/

/-- `struct loss_interval`. -/
structure LossInterval where
  received : ℕ
  gaps : ℕ
  contributors : BitVec 32
  elapsed : ℤ

/-- What a tracker received between two snapshots, as a `uint32_t`. -/
def receivedBetween (a b : AutoLossSnapshot) (i : ℕ) : ℕ :=
  ((b.tracker i).received - (a.tracker i).received).toNat

/-- What a tracker missed between two snapshots, as a `uint32_t`. -/
def gapsBetween (a b : AutoLossSnapshot) (i : ℕ) : ℕ :=
  ((b.tracker i).gaps - (a.tracker i).gaps).toNat

/-- A sum over the active trackers. -/
def sumActive (mask : BitVec 32) (f : ℕ → ℕ) : ℕ :=
  ∑ i ∈ Finset.range autoLossTrackers, if hasBit mask i then f i else 0

/-- The interval between two snapshots. The `uint64_t` sums cannot overflow. -/
def intervalOf (a b : AutoLossSnapshot) (elapsed : ℤ) : LossInterval where
  received := sumActive b.activeMask (receivedBetween a b)
  gaps := sumActive b.activeMask (gapsBetween a b)
  contributors := maskBelow 32 autoLossTrackers fun i =>
    hasBit b.activeMask i && receivedBetween a b i != 0
  elapsed := elapsed

/-! ## The window -/

/-- The static struct `loss`, without `scan_baseline`. -/
structure LossWindow where
  previous : AutoLossSnapshot
  interval : ℕ → LossInterval
  sampled : ℤ
  count : ℕ
  cursor : ℕ
  valid : Bool
  resuming : Bool

namespace LossWindow

/-- `loss_baseline`. -/
def baseline (s : AutoLossSnapshot) (now : ℤ) (resuming : Bool) (l : LossWindow) : LossWindow :=
  { l with
    previous := s
    sampled := now
    count := 0
    cursor := 0
    valid := true
    resuming := resuming }

/-- The snapshot extends the window. -/
def fits (s : AutoLossSnapshot) (now : ℤ) (l : LossWindow) : Bool :=
  l.valid && s.ready && decide (acEvidenceMs - 500 ≤ now - l.sampled) &&
    decide (now - l.sampled ≤ acEvidenceMs + 500) && !discontinuity l.previous s

/-- The interval that ends with the snapshot. -/
def item (s : AutoLossSnapshot) (now : ℤ) (l : LossWindow) : LossInterval :=
  intervalOf l.previous s (now - l.sampled)

/-- The interval that ends with the snapshot, put into the ring. -/
def push (s : AutoLossSnapshot) (now : ℤ) (l : LossWindow) : LossWindow :=
  { l with
    previous := s
    sampled := now
    interval := update l.interval l.cursor (l.item s now)
    cursor := (l.cursor + 1) % acWindowSamples
    count := if l.count < acWindowSamples then l.count + 1 else l.count }

/-- The sums over the ring. -/
def totalReceived (l : LossWindow) : ℕ :=
  ((List.range acWindowSamples).map fun i => (l.interval i).received).sum

def totalGaps (l : LossWindow) : ℕ :=
  ((List.range acWindowSamples).map fun i => (l.interval i).gaps).sum

def totalElapsed (l : LossWindow) : ℤ :=
  ((List.range acWindowSamples).map fun i => (l.interval i).elapsed).sum

def allContributors (l : LossWindow) : BitVec 32 :=
  (List.range acWindowSamples).foldl (fun m i => m ||| (l.interval i).contributors) 0

/-- A full window that gives way to a new baseline: it spans too much, or nothing was received. -/
def dropped (l : LossWindow) : Bool :=
  decide (acWindowMs + 500 < l.totalElapsed) ||
    decide (acWindowMs ≤ l.totalElapsed) && l.totalReceived == 0

/-- The verdict of a full window, if it allows one: whether more than 20% were lost. -/
def verdict (active : BitVec 32) (l : LossWindow) : Option Bool :=
  if l.totalElapsed < acWindowMs ∨ l.allContributors ≠ active ∨
      l.totalReceived + l.totalGaps < acMinInferredSamples then none
  else some (decide ((l.totalReceived + l.totalGaps) * 20 < l.totalGaps * 100))

/-- The end of `loss_sample`, after the interval was put into the ring. -/
def conclude (s : AutoLossSnapshot) (now : ℤ) (l : LossWindow) : LossWindow × Option Bool :=
  if l.count < acWindowSamples then (l, none)
  else if acWindowMs + 500 < l.totalElapsed then (l.baseline s now false, none)
  else if acWindowMs ≤ l.totalElapsed ∧ l.totalReceived = 0 then (l.baseline s now true, none)
  else (l, l.verdict s.activeMask)

/-- `loss_sample`; no verdict is `-1`. -/
def lossSample (s : AutoLossSnapshot) (now : ℤ) (l : LossWindow) : LossWindow × Option Bool :=
  if l.fits s now then
    -- the first interval after an idle window spans an unknown period
    if l.resuming then (l.baseline s now ((l.item s now).received == 0), none)
    else (l.push s now).conclude s now
  else (l.baseline s now false, none)

end LossWindow

/-! ## The system -/

/-- What the worker does to the window. -/
inductive LossOp
  | sample (s : AutoLossSnapshot) (now : ℤ)
  /-- `loss.valid = false`. -/
  | invalidate
  | baseline (s : AutoLossSnapshot) (now : ℤ) (resuming : Bool)
  /-- `loss.previous = snapshot`, which is done only while the window is empty. -/
  | rebase (s : AutoLossSnapshot)

/-- What a history records of the window. -/
inductive LossEvent
  /-- The window starts at the snapshot. -/
  | baseline (s : AutoLossSnapshot) (now : ℤ)
  /-- The snapshot the window starts at was replaced. -/
  | rebased (s : AutoLossSnapshot)
  | invalidated
  /-- The snapshot extends the window. -/
  | accepted (s : AutoLossSnapshot) (now : ℤ)

namespace LossWindow

/-- What `loss_sample` reports. -/
def sampleEvents (s : AutoLossSnapshot) (now : ℤ) (l : LossWindow) : List LossEvent :=
  if l.fits s now && !l.resuming then
    let pushed := l.push s now
    .accepted s now ::
      if decide (acWindowSamples ≤ pushed.count) && pushed.dropped then [.baseline s now] else []
  else [.baseline s now]

/-- One step. -/
def step (l : LossWindow) : LossOp → Option (LossWindow × List LossEvent)
  | .sample s now => some ((l.lossSample s now).1, l.sampleEvents s now)
  | .invalidate => some ({ l with valid := false }, [.invalidated])
  | .baseline s now resuming => some (l.baseline s now resuming, [.baseline s now])
  | .rebase s => if l.count = 0 then some ({ l with previous := s }, [.rebased s]) else none

/-- The static zeros. -/
def zero : LossWindow where
  previous := ⟨fun _ => ⟨0, 0, 0⟩, 0, 0, 0, 0, false, 0, false⟩
  interval := fun _ => ⟨0, 0, 0, 0⟩
  sampled := 0
  count := 0
  cursor := 0
  valid := false
  resuming := false

end LossWindow

/-- The window under anything the worker does to it. -/
def lossSystem : EventSystem LossWindow LossOp LossEvent where
  init := .zero
  step := LossWindow.step

/-! ## References -/

/-- A snapshot and when it was taken. -/
abbrev Reference := AutoLossSnapshot × ℤ

/-- The references after an event, the newest first. -/
def followReferences (refs : List Reference) : LossEvent → List Reference
  | .baseline s now => [(s, now)]
  | .rebased s => refs.head?.toList.map fun r => (s, r.2)
  | .invalidated => []
  | .accepted s now => (s, now) :: refs

/-- The samples since the last baseline and the baseline, the newest first. -/
def references (trace : List LossEvent) : List Reference := trace.foldl followReferences []

theorem references_append (trace es : List LossEvent) :
    references (trace ++ es) = es.foldl followReferences (references trace) := List.foldl_append

/-- The intervals between neighbouring references. -/
def intervals : List Reference → List LossInterval
  | newer :: older :: rest =>
    intervalOf older.1 newer.1 (newer.2 - older.2) :: intervals (older :: rest)
  | _ => []

theorem length_intervals (refs : List Reference) : (intervals refs).length = refs.length - 1 := by
  induction refs with
  | nil => rfl
  | cons newer refs ih =>
    cases refs with
    | nil => rfl
    | cons older rest =>
      rw [intervals, List.length_cons, ih]
      rfl

/-- Nothing breaks the evidence between two snapshots. -/
structure Continues (a b : AutoLossSnapshot) : Prop where
  activeMask : a.activeMask = b.activeMask
  resetEpoch : a.resetEpoch = b.resetEpoch
  layoutEpoch : a.layoutEpoch = b.layoutEpoch
  capPending : a.capPending = b.capPending
  home : a.home = b.home
  eligible : a.eligible = b.eligible
  restarts : ∀ i < autoLossTrackers, hasBit b.activeMask i = true →
    (a.tracker i).restarts = (b.tracker i).restarts
  received : ∀ i < autoLossTrackers, hasBit b.activeMask i = true →
    (a.tracker i).received ≤ (b.tracker i).received
  gaps : ∀ i < autoLossTrackers, hasBit b.activeMask i = true →
    (a.tracker i).gaps ≤ (b.tracker i).gaps

theorem continues_of_not_discontinuity {a b : AutoLossSnapshot} (h : discontinuity a b = false) :
    Continues a b := by
  simp only [discontinuity, TrackerLoss.breaks, Bool.or_eq_false_iff, bne_eq_false_iff_eq,
    List.any_eq_false, List.mem_range, Bool.and_eq_true, Bool.or_eq_true, bne_iff_ne,
    decide_eq_true_eq, not_and, not_or, not_not, BitVec.not_lt] at h
  obtain ⟨⟨⟨⟨⟨⟨hactive, hreset⟩, hlayout⟩, hcap⟩, hhome⟩, heligible⟩, htracker⟩ := h
  exact ⟨hactive, hreset, hlayout, hcap, hhome, heligible, fun i hi hbit => (htracker i hi hbit).1.1,
    fun i hi hbit => (htracker i hi hbit).1.2, fun i hi hbit => (htracker i hi hbit).2⟩

/-- A reference follows an older one in a window. -/
structure Follows (newer older : Reference) : Prop where
  spacing : 500 ≤ newer.2 - older.2 ∧ newer.2 - older.2 ≤ 1500
  ready : newer.1.ready = true
  continues : Continues older.1 newer.1

theorem follows_of_fits {l : LossWindow} {s : AutoLossSnapshot} {now : ℤ} (h : l.fits s now = true) :
    Follows (s, now) (l.previous, l.sampled) := by
  simp only [LossWindow.fits, Bool.and_eq_true, Bool.not_eq_true'] at h
  obtain ⟨⟨⟨⟨-, hready⟩, hlow⟩, hhigh⟩, hcontinues⟩ := h
  exact ⟨⟨of_decide_eq_true hlow, of_decide_eq_true hhigh⟩, hready,
    continues_of_not_discontinuity hcontinues⟩

/-! ## The window follows the history -/

/-- The ring holds the intervals between the newest references, which follow one another. -/
structure Windowed (refs : List Reference) (l : LossWindow) : Prop where
  head : l.valid = true → refs.head? = some (l.previous, l.sampled)
  none : l.valid = false → refs = []
  ring : l.valid = true → RingHolds acWindowSamples l.interval l.count l.cursor (intervals refs)
  chain : refs.IsChain Follows

section Windowed

variable {refs : List Reference} {l : LossWindow} {s : AutoLossSnapshot} {now : ℤ}

theorem windowed_zero : Windowed [] .zero where
  head h := by cases h
  none _ := rfl
  ring h := by cases h
  chain := .nil

theorem windowed_baseline (s : AutoLossSnapshot) (now : ℤ) (resuming : Bool) (l : LossWindow) :
    Windowed [(s, now)] (l.baseline s now resuming) where
  head _ := rfl
  none h := by cases h
  ring _ := .nil acWindowSamples l.interval
  chain := .singleton _

theorem Windowed.rebase (h : Windowed refs l) (hempty : l.count = 0) (s : AutoLossSnapshot) :
    Windowed (refs.head?.toList.map fun r => (s, r.2)) { l with previous := s } := by
  cases hvalid : l.valid with
  | false =>
    rw [h.none hvalid]
    exact ⟨fun htrue => absurd htrue Bool.false_ne_true, fun _ => rfl,
      fun htrue => absurd htrue Bool.false_ne_true, .nil⟩
  | true =>
    have hring := h.ring hvalid
    rw [h.head hvalid]
    refine ⟨fun _ => rfl, fun hfalse => absurd hfalse.symm Bool.false_ne_true,
      fun _ => ?_, .singleton _⟩
    -- an empty window has no intervals, so the cursor is at the first slot
    have hnone : (intervals refs).length = 0 := by
      have hcount := hring.count_eq
      rw [hempty, acWindowSamples] at hcount
      omega
    have hcursor := hring.cursor_eq
    rw [hnone] at hcursor
    show RingHolds acWindowSamples l.interval l.count l.cursor []
    rw [hempty, hcursor]
    exact .nil _ _

/-- A snapshot that fits is a further reference. -/
theorem Windowed.push (h : Windowed refs l) (hfits : l.fits s now = true) :
    Windowed ((s, now) :: refs) (l.push s now) := by
  have hvalid : l.valid = true := by
    simp only [LossWindow.fits, Bool.and_eq_true] at hfits
    exact hfits.1.1.1.1
  obtain ⟨rest, rfl⟩ : ∃ rest, refs = (l.previous, l.sampled) :: rest :=
    List.head?_eq_some_iff.mp (h.head hvalid)
  refine ⟨fun _ => rfl, fun hfalse => absurd (hvalid.symm.trans hfalse).symm Bool.false_ne_true,
    fun _ => (h.ring hvalid).push _, ?_⟩
  exact List.isChain_cons_cons.mpr ⟨follows_of_fits hfits, h.chain⟩

end Windowed

/-! ## The sums over a window -/

/-- What a counter has counted, over the active trackers. -/
def counted (counter : TrackerLoss → BitVec 32) (r : Reference) : ℕ :=
  sumActive r.1.activeMask fun i => (counter (r.1.tracker i)).toNat

/-- What was received from the oldest reference to the newest. -/
def receivedOver (newest oldest : Reference) : ℕ :=
  sumActive newest.1.activeMask fun i =>
    (newest.1.tracker i).received.toNat - (oldest.1.tracker i).received.toNat

/-- What was missed from the oldest reference to the newest. -/
def gapsOver (newest oldest : Reference) : ℕ :=
  sumActive newest.1.activeMask fun i =>
    (newest.1.tracker i).gaps.toNat - (oldest.1.tracker i).gaps.toNat

section Sums

variable {refs : List Reference} {newer older newest oldest : Reference}

/-- **Induction along a window**: from the oldest reference, interval by interval. -/
theorem window_induction {P : List LossInterval → Reference → Reference → Prop}
    (hnil : ∀ r, P [] r r)
    (hcons : ∀ newer older oldest ivs, Follows newer older → P ivs older oldest →
      P (intervalOf older.1 newer.1 (newer.2 - older.2) :: ivs) newer oldest)
    {n : ℕ} (hchain : refs.IsChain Follows) (hhead : refs.head? = some newest)
    (hlast : refs[n]? = some oldest) : P ((intervals refs).take n) newest oldest := by
  induction n generalizing refs newest with
  | zero =>
    rw [← List.head?_eq_getElem?, hhead] at hlast
    rw [List.take_zero, Option.some.inj hlast]
    exact hnil oldest
  | succ n ih =>
    obtain ⟨rest, rfl⟩ := List.head?_eq_some_iff.mp hhead
    rw [List.getElem?_cons_succ] at hlast
    cases rest with
    | nil => cases hlast
    | cons older rest =>
      obtain ⟨hfollows, htail⟩ := List.isChain_cons_cons.mp hchain
      rw [intervals, List.take_succ_cons]
      exact hcons _ _ _ _ hfollows (ih htail rfl hlast)

theorem sumActive_congr {mask : BitVec 32} {f g : ℕ → ℕ}
    (h : ∀ i < autoLossTrackers, hasBit mask i = true → f i = g i) :
    sumActive mask f = sumActive mask g := by
  refine Finset.sum_congr rfl fun i hi => ?_
  split
  case isTrue hbit => exact h i (Finset.mem_range.mp hi) hbit
  case isFalse => rfl

theorem sumActive_add (mask : BitVec 32) (f g : ℕ → ℕ) :
    sumActive mask f + sumActive mask g = sumActive mask fun i => f i + g i := by
  rw [sumActive, sumActive, ← Finset.sum_add_distrib]
  refine Finset.sum_congr rfl fun i _ => ?_
  split <;> rfl

/-- A difference of counters that did not go back is the true one. -/
theorem toNat_sub_add {a b : BitVec 32} (h : a ≤ b) : (b - a).toNat + a.toNat = b.toNat := by
  rw [BitVec.toNat_sub_of_le h]
  exact Nat.sub_add_cancel h

/-- An interval holds what was counted between its ends. -/
theorem sum_interval_add (h : Follows newer older) {counter : TrackerLoss → BitVec 32}
    (hcounter : ∀ i < autoLossTrackers, hasBit newer.1.activeMask i = true →
      counter (older.1.tracker i) ≤ counter (newer.1.tracker i)) :
    sumActive newer.1.activeMask (fun i =>
      (counter (newer.1.tracker i) - counter (older.1.tracker i)).toNat) + counted counter older =
      counted counter newer := by
  rw [counted, h.continues.activeMask, sumActive_add]
  exact sumActive_congr fun i hi hbit => toNat_sub_add (hcounter i hi hbit)

/-- The active trackers are the same over a window, and no counter goes back. -/
structure Grows (newest oldest : Reference) : Prop where
  activeMask : oldest.1.activeMask = newest.1.activeMask
  received : ∀ i < autoLossTrackers, hasBit newest.1.activeMask i = true →
    (oldest.1.tracker i).received ≤ (newest.1.tracker i).received
  gaps : ∀ i < autoLossTrackers, hasBit newest.1.activeMask i = true →
    (oldest.1.tracker i).gaps ≤ (newest.1.tracker i).gaps

theorem Grows.cons (h : Follows newer older) (hgrows : Grows older oldest) : Grows newer oldest where
  activeMask := hgrows.activeMask.trans h.continues.activeMask
  received i hi hbit := BitVec.le_trans
    (hgrows.received i hi (h.continues.activeMask.symm ▸ hbit)) (h.continues.received i hi hbit)
  gaps i hi hbit := BitVec.le_trans
    (hgrows.gaps i hi (h.continues.activeMask.symm ▸ hbit)) (h.continues.gaps i hi hbit)

/-- What the intervals of a window add up to. -/
structure Telescopes (ivs : List LossInterval) (newest oldest : Reference) : Prop where
  grows : Grows newest oldest
  received : (ivs.map LossInterval.received).sum + counted TrackerLoss.received oldest =
    counted TrackerLoss.received newest
  gaps : (ivs.map LossInterval.gaps).sum + counted TrackerLoss.gaps oldest =
    counted TrackerLoss.gaps newest
  elapsed : (ivs.map LossInterval.elapsed).sum = newest.2 - oldest.2
  contributors : ∀ i, (∃ iv ∈ ivs, hasBit iv.contributors i = true) → i < autoLossTrackers ∧
    hasBit newest.1.activeMask i = true ∧
      (oldest.1.tracker i).received < (newest.1.tracker i).received

theorem telescopes_nil (r : Reference) : Telescopes [] r r where
  grows := ⟨rfl, fun _ _ _ => BitVec.le_refl _, fun _ _ _ => BitVec.le_refl _⟩
  received := Nat.zero_add _
  gaps := Nat.zero_add _
  elapsed := (Int.sub_self _).symm
  contributors i h := by
    obtain ⟨iv, hiv, -⟩ := h
    cases hiv

theorem Telescopes.cons {ivs : List LossInterval} (h : Follows newer older)
    (hivs : Telescopes ivs older oldest) :
    Telescopes (intervalOf older.1 newer.1 (newer.2 - older.2) :: ivs) newer oldest where
  grows := .cons h hivs.grows
  received := by
    rw [List.map_cons, List.sum_cons, Nat.add_assoc, hivs.received]
    exact sum_interval_add h h.continues.received
  gaps := by
    rw [List.map_cons, List.sum_cons, Nat.add_assoc, hivs.gaps]
    exact sum_interval_add h h.continues.gaps
  elapsed := by
    rw [List.map_cons, List.sum_cons, hivs.elapsed]
    show newer.2 - older.2 + (older.2 - oldest.2) = newer.2 - oldest.2
    omega
  contributors i hi := by
    obtain ⟨iv, hmem, hbit⟩ := hi
    rcases List.mem_cons.mp hmem with rfl | hmem
    · -- the tracker contributed to the newest interval
      have hsmall : autoLossTrackers ≤ 32 := by decide
      have hboth : hasBit (maskBelow 32 autoLossTrackers fun i =>
          hasBit newer.1.activeMask i && receivedBetween older.1 newer.1 i != 0) i = true := hbit
      rw [hasBit_maskBelow hsmall] at hboth
      simp only [Bool.and_eq_true, decide_eq_true_eq, bne_iff_ne] at hboth
      obtain ⟨hlt, hactive, hreceived⟩ := hboth
      have hle := h.continues.received i hlt hactive
      have hbefore := hivs.grows.received i hlt (h.continues.activeMask.symm ▸ hactive)
      have hadd := toNat_sub_add hle
      have hpositive : 0 < ((newer.1.tracker i).received - (older.1.tracker i).received).toNat :=
        Nat.pos_of_ne_zero hreceived
      refine ⟨hlt, hactive, BitVec.lt_def.mpr ?_⟩
      have hbefore' := BitVec.le_def.mp hbefore
      omega
    · obtain ⟨hlt, hactive, hgrown⟩ := hivs.contributors i ⟨iv, hmem, hbit⟩
      rw [h.continues.activeMask] at hactive
      have hlater := BitVec.le_def.mp (h.continues.received i hlt hactive)
      exact ⟨hlt, hactive, BitVec.lt_def.mpr (Nat.lt_of_lt_of_le (BitVec.lt_def.mp hgrown) hlater)⟩

/-- What was counted over a window is the difference of its ends. -/
theorem counted_sub (h : Grows newest oldest) {counter : TrackerLoss → BitVec 32}
    (hcounter : ∀ i < autoLossTrackers, hasBit newest.1.activeMask i = true →
      counter (oldest.1.tracker i) ≤ counter (newest.1.tracker i)) :
    sumActive newest.1.activeMask (fun i =>
      (counter (newest.1.tracker i)).toNat - (counter (oldest.1.tracker i)).toNat) +
      counted counter oldest = counted counter newest := by
  rw [counted, h.activeMask, sumActive_add]
  exact sumActive_congr fun i hi hbit => Nat.sub_add_cancel (hcounter i hi hbit)

end Sums

/-! ## Verdicts -/

/-- The ten newest intervals since the last baseline are a window a verdict can be about. -/
structure FullWindow (refs : List Reference) (newest oldest : Reference) : Prop where
  head : refs.head? = some newest
  tenth : refs[acWindowSamples]? = some oldest
  chain : (refs.take (acWindowSamples + 1)).IsChain Follows
  span : 10000 ≤ newest.2 - oldest.2 ∧ newest.2 - oldest.2 ≤ 10500
  active : ∀ i, hasBit newest.1.activeMask i = true → i < autoLossTrackers ∧
    (oldest.1.tracker i).received < (newest.1.tracker i).received
  samples : 100 ≤ receivedOver newest oldest + gapsOver newest oldest

section Verdicts

variable {refs : List Reference} {l : LossWindow} {s : AutoLossSnapshot} {now : ℤ}

theorem hasBit_foldl_or (ms : List (BitVec 32)) (m : BitVec 32) (i : ℕ) :
    hasBit (ms.foldl (· ||| ·) m) i = (hasBit m i || ms.any fun m' => hasBit m' i) := by
  induction ms generalizing m with
  | nil => rw [List.foldl_nil, List.any_nil, Bool.or_false]
  | cons m' ms ih =>
    rw [List.foldl_cons, ih, List.any_cons, hasBit, BitVec.getLsbD_or, Bool.or_assoc]
    rfl

/-- The sums over the ring are those over the newest intervals. -/
theorem totals_eq {items : List LossInterval}
    (h : RingHolds acWindowSamples l.interval l.count l.cursor items)
    (hfull : acWindowSamples ≤ items.length) :
    l.totalReceived = ((items.take acWindowSamples).map LossInterval.received).sum ∧
    l.totalGaps = ((items.take acWindowSamples).map LossInterval.gaps).sum ∧
    l.totalElapsed = ((items.take acWindowSamples).map LossInterval.elapsed).sum ∧
    ∀ i, hasBit l.allContributors i = true →
      ∃ iv ∈ items.take acWindowSamples, hasBit iv.contributors i = true := by
  have hperm := h.perm hfull
  have hsum : ∀ {M : Type} [AddCommMonoid M] (f : LossInterval → M),
      ((List.range acWindowSamples).map fun i => f (l.interval i)).sum =
        ((items.take acWindowSamples).map f).sum := by
    intro M _ f
    rw [← (hperm.map f).sum_eq, List.map_map]
    rfl
  refine ⟨hsum _, hsum _, hsum _, fun i hi => ?_⟩
  have hfold : l.allContributors =
      ((List.range acWindowSamples).map fun k => (l.interval k).contributors).foldl (· ||| ·) 0 := by
    rw [List.foldl_map]
    rfl
  rw [hfold, hasBit_foldl_or] at hi
  have hzero : hasBit (0 : BitVec 32) i = false := hasBit_zero i
  rw [hzero, Bool.false_or, List.any_map, List.any_eq_true] at hi
  obtain ⟨k, hk, hbit⟩ := hi
  exact ⟨l.interval k, hperm.subset (List.mem_map_of_mem hk), hbit⟩

/-- A verdict of a window. -/
theorem Windowed.verdict_law (h : Windowed refs l) (hvalid : l.valid = true)
    (hcount : acWindowSamples ≤ l.count) (hspan : l.totalElapsed ≤ acWindowMs + 500) {lost : Bool}
    (hverdict : l.verdict l.previous.activeMask = some lost) :
    ∃ oldest, FullWindow refs (l.previous, l.sampled) oldest ∧ (lost = true ↔
      receivedOver (l.previous, l.sampled) oldest + gapsOver (l.previous, l.sampled) oldest <
        5 * gapsOver (l.previous, l.sampled) oldest) := by
  have hring := h.ring hvalid
  have hfull : acWindowSamples ≤ (intervals refs).length := by
    have hmin := hring.count_eq
    omega
  have hlong : acWindowSamples < refs.length := by
    rw [length_intervals] at hfull
    have hten : acWindowSamples = 10 := rfl
    omega
  have hhead := h.head hvalid
  obtain ⟨oldest, holdest⟩ : ∃ oldest, refs[acWindowSamples]? = some oldest :=
    ⟨_, List.getElem?_eq_getElem hlong⟩
  obtain ⟨hreceived, hgaps, helapsed, hcontributors⟩ := totals_eq hring hfull
  -- the sums over the ring telescope over the references
  have hsums := window_induction (P := Telescopes) telescopes_nil
    (fun _ _ _ _ hfollows hivs => .cons hfollows hivs) h.chain hhead holdest
  have htotal : l.totalReceived = receivedOver (l.previous, l.sampled) oldest := by
    have hends := counted_sub hsums.grows hsums.grows.received
    have hivs := hsums.received
    rw [receivedOver]
    omega
  have hmissed : l.totalGaps = gapsOver (l.previous, l.sampled) oldest := by
    have hends := counted_sub hsums.grows hsums.grows.gaps
    have hivs := hsums.gaps
    rw [gapsOver]
    omega
  unfold LossWindow.verdict at hverdict
  split at hverdict
  case isTrue => cases hverdict
  case isFalse hclear =>
    simp only [not_or, not_lt, ne_eq, not_not] at hclear
    obtain ⟨hlow, hall, hsamples⟩ := hclear
    have hresult := Option.some.inj hverdict
    refine ⟨oldest, ⟨hhead, holdest, h.chain.take _, ⟨?_, ?_⟩, fun i hi => ?_,
      ?_⟩, ?_⟩
    · rw [← hsums.elapsed, ← helapsed]
      exact hlow
    · rw [← hsums.elapsed, ← helapsed]
      exact hspan
    · have hbit : hasBit l.allContributors i = true := by
        rw [hall]
        exact hi
      obtain ⟨hlt, -, hgrown⟩ := hsums.contributors i (hcontributors i hbit)
      exact ⟨hlt, hgrown⟩
    · rw [← htotal, ← hmissed]
      exact hsamples
    · rw [← hresult, decide_eq_true_iff, ← htotal, ← hmissed]
      omega

/-- A snapshot that fits is put into the ring of a window that stays valid. -/
theorem push_valid (hfits : l.fits s now = true) : (l.push s now).valid = true := by
  simp only [LossWindow.fits, Bool.and_eq_true] at hfits
  exact hfits.1.1.1.1

/-- A sample. -/
theorem Windowed.sample (h : Windowed refs l) (s : AutoLossSnapshot) (now : ℤ) :
    Windowed ((l.sampleEvents s now).foldl followReferences refs) (l.lossSample s now).1 := by
  unfold LossWindow.sampleEvents LossWindow.lossSample
  cases hfits : l.fits s now with
  | false => exact windowed_baseline s now false l
  | true =>
    cases hresuming : l.resuming with
    | true => exact windowed_baseline s now _ l
    | false =>
      have hpushed := h.push hfits
      simp only [Bool.not_false, Bool.and_self, if_pos, Bool.false_eq_true, if_false,
        List.foldl_cons, followReferences]
      unfold LossWindow.conclude LossWindow.dropped
      by_cases hshort : (l.push s now).count < acWindowSamples
      · rw [if_pos hshort, decide_eq_false (not_le.mpr hshort), Bool.false_and,
          if_neg Bool.false_ne_true]
        exact hpushed
      rw [if_neg hshort, decide_eq_true (not_lt.mp hshort), Bool.true_and]
      by_cases hlong : acWindowMs + 500 < (l.push s now).totalElapsed
      · rw [if_pos hlong, decide_eq_true hlong, Bool.true_or, if_pos rfl]
        exact windowed_baseline s now false _
      rw [if_neg hlong, decide_eq_false hlong, Bool.false_or]
      by_cases hidle : acWindowMs ≤ (l.push s now).totalElapsed ∧ (l.push s now).totalReceived = 0
      · rw [if_pos hidle, decide_eq_true hidle.1, hidle.2, beq_self_eq_true, Bool.and_self,
          if_pos rfl]
        exact windowed_baseline s now true _
      have hkept : ¬(decide (acWindowMs ≤ (l.push s now).totalElapsed) &&
          (l.push s now).totalReceived == 0) = true := by
        rw [Bool.and_eq_true, decide_eq_true_iff, beq_iff_eq]
        exact hidle
      rw [if_neg hidle, if_neg hkept]
      exact hpushed

/-- The window follows its history. -/
theorem windowed_of_run {trace : List LossEvent} (h : lossSystem.Run trace l) :
    Windowed (references trace) l := by
  have hstart : Windowed (references []) lossSystem.init := windowed_zero
  refine h.history_invariant (P := fun trace l => Windowed (references trace) l) hstart
    fun trace l op l' es hl _ hstep => ?_
  rw [references_append]
  cases op with
  | sample s now =>
    obtain ⟨rfl, rfl⟩ := Prod.mk.inj (Option.some.inj hstep)
    exact hl.sample s now
  | invalidate =>
    obtain ⟨rfl, rfl⟩ := Prod.mk.inj (Option.some.inj hstep)
    exact ⟨fun htrue => absurd htrue Bool.false_ne_true, fun _ => rfl,
      fun htrue => absurd htrue Bool.false_ne_true, .nil⟩
  | baseline s now resuming =>
    obtain ⟨rfl, rfl⟩ := Prod.mk.inj (Option.some.inj hstep)
    exact windowed_baseline s now resuming l
  | rebase s =>
    have htaken : (if l.count = 0 then some ({ l with previous := s }, [LossEvent.rebased s])
        else none) = some (l', es) := hstep
    split at htaken
    case isFalse => cases htaken
    case isTrue hempty =>
      obtain ⟨rfl, rfl⟩ := Prod.mk.inj (Option.some.inj htaken)
      exact hl.rebase hempty s

/-- **A verdict is one about ten consecutive intervals since the last baseline**: each lasted from 500
to 1500 ms and together they lasted from 10000 to 10500 ms, nothing broke the evidence, every active
tracker was received and 100 samples were taken; and more than a fifth was lost exactly if the verdict
says so. -/
theorem loss_verdict {trace : List LossEvent} (h : lossSystem.Run trace l) {lost : Bool}
    (hverdict : (l.lossSample s now).2 = some lost) :
    ∃ oldest, FullWindow ((s, now) :: references trace) (s, now) oldest ∧ (lost = true ↔
      receivedOver (s, now) oldest + gapsOver (s, now) oldest < 5 * gapsOver (s, now) oldest) := by
  unfold LossWindow.lossSample at hverdict
  split at hverdict
  case isFalse => cases hverdict
  case isTrue hfits =>
    split at hverdict
    case isTrue => cases hverdict
    case isFalse =>
      have hpushed := (windowed_of_run h).push hfits
      unfold LossWindow.conclude at hverdict
      split at hverdict
      · cases hverdict
      · split at hverdict
        · cases hverdict
        · split at hverdict
          · cases hverdict
          · rename_i hfull hlong _
            exact hpushed.verdict_law (push_valid hfits) (not_lt.mp hfull) (not_lt.mp hlong) hverdict

end Verdicts

/-- Tracker 0 after `n` seconds of 79 packets and 21 gaps each. -/
def lossySecond (n : ℕ) : AutoLossSnapshot where
  tracker i := if i = 0 then ⟨BitVec.ofNat 32 (79 * n), BitVec.ofNat 32 (21 * n), 0⟩ else ⟨0, 0, 0⟩
  activeMask := 1
  resetEpoch := 0
  readyMask := 1
  layoutEpoch := 0
  capPending := false
  home := 2
  eligible := true

/-- Ten such seconds are judged as lossy. -/
theorem loss_verdict_lossySecond : ∃ trace l oldest, lossSystem.Run trace l ∧
    FullWindow ((lossySecond 10, 10000) :: references trace) (lossySecond 10, 10000) oldest ∧
      receivedOver (lossySecond 10, 10000) oldest + gapsOver (lossySecond 10, 10000) oldest <
        5 * gapsOver (lossySecond 10, 10000) oldest := by
  obtain ⟨trace, l, hrun, htest⟩ := lossSystem.exists_run_of_replay
    ((List.range 10).map fun n => .sample (lossySecond n) (1000 * n))
    (fun _ l => decide ((l.lossSample (lossySecond 10) 10000).2 = some true)) (by decide +kernel)
  obtain ⟨oldest, hwindow, hlost⟩ := loss_verdict hrun (of_decide_eq_true htest)
  exact ⟨trace, l, oldest, hrun, hwindow, hlost.mp rfl⟩

end SlimeReceiver.AutoChannel
