import Mathlib.Data.List.Perm.Basic
import Mathlib.Data.List.Sort
import Mathlib.Logic.Function.Basic
import Mathlib.Tactic.Ring
import SlimeReceiver.Library.BoundedClimb
import SlimeReceiver.Library.EventSystem

/-! # Sample reordering

`SampleReorder` of `data_collect_reorder.py`, which both collectors put their raw packets through. The heap
is a sorted list, the dictionary a partial function, and the loop of `_drain` takes a number of turns that
`drainTurns` bounds.

* **`push`**, **`finish`** — the methods; `none` is a Python exception.
* **`Epoch`**, **`epochs`** — what was retained and emitted, told from the events.
* **`Tracks`** — what holds of the reorderer and its current epoch.
* **`samples_conserved`** — every retained sample is emitted once and in order. -/

namespace SlimeReceiver

open Function (update update_self update_of_ne)

namespace Reorder

variable {α β : Type*}

/-! ## The code -/

/-- `WINDOW`. -/
def window : ℤ := 200
/-- `MAX_FORWARD_GAP`. -/
def maxForwardGap : ℤ := 500

/-- A parsed sample; `body` is the rest of the dictionary. -/
structure Sample (α : Type*) where
  seq : BitVec 16
  body : α
deriving DecidableEq

/-- The fields of a `SampleReorder`. `recent` is indexed by a position's remainder. -/
structure SampleReorder (α β : Type*) where
  pending : ℤ → Option (Sample α × Bool)
  positions : List ℤ
  recent : ℤ → Option (ℤ × β)
  high : Option ℤ
  cursor : Option ℤ
  last : Option ℤ
  gapCount : ℤ
  retransmitCount : ℕ
  unknownBoundaries : ℕ

/-- `__init__`. -/
def SampleReorder.init : SampleReorder α β where
  pending _ := none
  positions := []
  recent _ := none
  high := none
  cursor := none
  last := none
  gapCount := 0
  retransmitCount := 0
  unknownBoundaries := 0

/-- The visible events. -/
inductive ReorderEvent (α β : Type*)
  /-- `_start` opens an epoch. -/
  | opened
  /-- `push` keeps the sample and answers `True`. -/
  | retained (position : ℤ) (sample : Sample α) (payload : β)
  /-- `push` answers `False`. -/
  | refused (position : ℤ) (sample : Sample α) (payload : β)
  /-- `on_sample`. -/
  | emitted (position : ℤ) (sample : Sample α) (discontinuity : Bool)
deriving DecidableEq

/-- What a method leaves and reports; `none` is an exception. -/
abbrev Outcome (α β : Type*) := Option (SampleReorder α β × List (ReorderEvent α β))

/-- Whether `_emit` finds the gap before a sample too wide. -/
def tooWide (last : Option ℤ) (position : ℤ) : Bool :=
  last.any fun last => maxForwardGap < position - last - 1

/-- The gap `_emit` counts before a sample. -/
def countedGap (last : Option ℤ) (position : ℤ) : ℤ :=
  last.elim 0 fun last => position - last - 1

/-- `_emit`. -/
def emit (position : ℤ) (s : SampleReorder α β) : Outcome α β :=
  (s.pending position).map fun held =>
    let discontinuity := held.2 || tooWide s.last position
    ({ s with
        pending := update s.pending position none
        gapCount := if discontinuity then s.gapCount else s.gapCount + countedGap s.last position
        unknownBoundaries := if discontinuity then s.unknownBoundaries + 1 else s.unknownBoundaries
        last := some position
        cursor := some (position + 1) },
      [.emitted position held.1 discontinuity])

/-- The loop of `_drain`, for so many turns at most. -/
def drainLoop (final : Bool) : ℕ → SampleReorder α β → Outcome α β
  | 0, _ => none
  | turns + 1, s =>
    match s.positions with
    | [] => some (s, [])
    | position :: rest =>
      if !final ∧ some position ≠ s.cursor then
        match s.high, s.cursor with
        | some high, some cursor =>
          if high - cursor ≤ window then some (s, [])
          else drainLoop final turns { s with cursor := some (cursor + 1) }
        | _, _ => none
      else
        (emit position { s with positions := rest }).bind fun emitted =>
          (drainLoop final turns emitted.1).map fun drained => (drained.1, emitted.2 ++ drained.2)

/-- More turns than the loop of `_drain` takes. -/
def drainTurns (s : SampleReorder α β) : ℕ :=
  s.positions.length + (s.high.getD 0 - s.cursor.getD 0).toNat + 1

/-- `_drain`. -/
def drain (final : Bool) (s : SampleReorder α β) : Outcome α β := drainLoop final (drainTurns s) s

/-- `finish`. -/
def finish (s : SampleReorder α β) : Outcome α β := drain true s

/-- `_insert`. -/
def insert (position : ℤ) (sample : Sample α) (payload : β) (discontinuity : Bool) (s : SampleReorder α β) :
    Outcome α β :=
  (drain false { s with
      recent := update s.recent (position % (window + 1)) (some (position, payload))
      pending := update s.pending position (some (sample, discontinuity))
      positions := s.positions.orderedInsert (· ≤ ·) position }).map fun drained =>
    (drained.1, .retained position sample payload :: drained.2)

/-- `_start`. -/
def start (sample : Sample α) (payload : β) (discontinuity : Bool) (s : SampleReorder α β) : Outcome α β :=
  let position : ℤ := sample.seq.toNat
  (finish s).bind fun finished =>
    (insert position sample payload discontinuity { finished.1 with
        recent := fun _ => none
        high := some position
        cursor := some position
        last := none }).map fun inserted =>
      (inserted.1, finished.2 ++ .opened :: inserted.2)

/-- The payload `_recent` holds for a position. -/
def recentPayload (s : SampleReorder α β) (position : ℤ) : Option β :=
  (s.recent (position % (window + 1))).bind fun recent =>
    if recent.1 = position then some recent.2 else none

/-- The distance from the high-water mark, as a signed 16-bit number. -/
def signedDelta (seq : BitVec 16) (high : ℤ) : ℤ := (seq.toNat - high + 32768) % 65536 - 32768

/-- `push`. -/
def push [DecidableEq β] (sample : Sample α) (payload : β) (discontinuity : Bool) (s : SampleReorder α β) :
    Outcome α β :=
  match s.high with
  | none => start sample payload discontinuity s
  | some high =>
    if discontinuity then start sample payload discontinuity s
    else
      let delta := signedDelta sample.seq high
      let position := high + delta
      if position < high - window ∨ maxForwardGap + 1 < delta then start sample payload true s
      else
        match recentPayload s position with
        | some earlier =>
          if earlier = payload then
            some ({ s with retransmitCount := s.retransmitCount + 1 }, [.refused position sample payload])
          else start sample payload true s
        | none =>
          match s.cursor with
          | none => none
          | some cursor =>
            if position < cursor then start sample payload true s
            else insert position sample payload false { s with
                retransmitCount := if delta < 0 then s.retransmitCount + 1 else s.retransmitCount
                high := some (max high position) }

/-- The calls. -/
inductive ReorderCall (α β : Type*)
  | push (sample : Sample α) (payload : β) (discontinuity : Bool)
  | finish

/-- The reorderer as a system. -/
def reorderSystem (α β : Type*) [DecidableEq β] :
    EventSystem (SampleReorder α β) (ReorderCall α β) (ReorderEvent α β) where
  init := .init
  step s
    | .push sample payload discontinuity => push sample payload discontinuity s
    | .finish => finish s

/-! ## Epochs -/

/-- What an epoch retained and what it emitted, oldest first. -/
structure Epoch (α β : Type*) where
  retained : List (ℤ × Sample α × β)
  emitted : List (ℤ × Sample α × Bool)

namespace Epoch

def empty : Epoch α β := ⟨[], []⟩

def retain (e : Epoch α β) (position : ℤ) (sample : Sample α) (payload : β) : Epoch α β :=
  { e with retained := e.retained ++ [(position, sample, payload)] }

def emit (e : Epoch α β) (position : ℤ) (sample : Sample α) (discontinuity : Bool) : Epoch α β :=
  { e with emitted := e.emitted ++ [(position, sample, discontinuity)] }

/-- The positions missing between the first emitted sample and the last one. -/
def gap (e : Epoch α β) : ℤ :=
  match e.emitted.head?, e.emitted.getLast? with
  | some first, some last => last.1 - first.1 + 1 - e.emitted.length
  | _, _ => 0

/-- The first emitted sample is marked as a discontinuity. -/
def Marked (e : Epoch α β) : Prop := e.emitted.head?.map (·.2.2) = some true

/-- Everything retained is emitted once, by increasing positions. -/
structure Complete (e : Epoch α β) : Prop where
  increasing : e.emitted.Pairwise fun a b => a.1 < b.1
  perm : (e.emitted.map fun a => (a.1, a.2.1)).Perm (e.retained.map fun a => (a.1, a.2.1))

end Epoch

/-- The epochs after one more event, newest first. -/
def epochsAfter : List (Epoch α β) → ReorderEvent α β → List (Epoch α β)
  | es, .opened => .empty :: es
  | es, .retained position sample payload => (es.headD .empty).retain position sample payload :: es.tail
  | es, .emitted position sample discontinuity =>
    (es.headD .empty).emit position sample discontinuity :: es.tail
  | es, .refused .. => es

/-- The epochs of a history, newest first. -/
def epochs (trace : List (ReorderEvent α β)) : List (Epoch α β) := trace.foldl epochsAfter []

theorem epochs_append (trace es : List (ReorderEvent α β)) :
    epochs (trace ++ es) = es.foldl epochsAfter (epochs trace) := List.foldl_append

/-- The gap of an epoch grows with the distance to the next emitted sample. -/
theorem Epoch.gap_emit {e : Epoch α β} {l p : ℤ} {x : Sample α} {d : Bool}
    (hlast : e.emitted.getLast?.map Prod.fst = some l) : (e.emit p x d).gap = e.gap + (p - l - 1) := by
  obtain ⟨last, hend, rfl⟩ := Option.map_eq_some_iff.mp hlast
  cases hemitted : e.emitted with
  | nil => rw [hemitted] at hend; cases hend
  | cons first rest =>
    have hold : e.gap = last.1 - first.1 + 1 - (rest.length + 1 : ℕ) := by
      rw [gap, hend, hemitted]
      rfl
    have hnew : (e.emit p x d).gap = p - first.1 + 1 - (rest.length + 1 + 1 : ℕ) := by
      rw [gap, emit, List.getLast?_append, hemitted]
      simp
    rw [hold, hnew]
    push_cast
    omega

/-! ## The turns of the loop -/

section Turns

variable {final : Bool} {turns : ℕ} {s s₁ s' : SampleReorder α β} {p h c : ℤ} {rest : List ℤ}
  {es es' : List (ReorderEvent α β)}

theorem drainLoop_of_empty (hpositions : s.positions = []) :
    drainLoop final (turns + 1) s = some (s, []) := by
  rw [drainLoop, hpositions]

theorem drainLoop_of_wait (hpositions : s.positions = p :: rest) (hwait : !final ∧ some p ≠ s.cursor)
    (hhigh : s.high = some h) (hcursor : s.cursor = some c) :
    drainLoop final (turns + 1) s =
      if h - c ≤ window then some (s, []) else drainLoop final turns { s with cursor := some (c + 1) } := by
  cases s
  subst hpositions hhigh hcursor
  rw [drainLoop]
  exact if_pos hwait

theorem drainLoop_of_emit (hpositions : s.positions = p :: rest) (hwait : ¬(!final ∧ some p ≠ s.cursor))
    (hemit : emit p { s with positions := rest } = some (s₁, es))
    (hloop : drainLoop final turns s₁ = some (s', es')) :
    drainLoop final (turns + 1) s = some (s', es ++ es') := by
  cases s
  subst hpositions
  rw [drainLoop]
  refine (if_neg hwait).trans ?_
  rw [hemit, Option.bind_some, hloop, Option.map_some]

end Turns

/-! ## The current epoch -/

/-- What waits in the heap. -/
def SampleReorder.waiting (s : SampleReorder α β) : List (ℤ × Sample α) :=
  s.positions.filterMap fun p => (s.pending p).map fun held => (p, held.1)

/-- The reorderer works on the epoch `e`: high-water mark `h`, cursor `c`, last emitted position `l`; `mark`
tells how the epoch starts and `base` is the gap count of the epochs before. -/
structure Tracks (base : ℤ) (mark : Bool) (e : Epoch α β) (s : SampleReorder α β) (h c l : ℤ) : Prop where
  high : s.high = some h
  cursor : s.cursor = some c
  last : s.last = some l
  last_lt : l < c
  cursor_le : ∀ p ∈ s.positions, c ≤ p
  climbs : Climbs (maxForwardGap + 1) l s.positions
  summit : summit l s.positions = h
  pending : ∀ p ∈ s.positions, ∃ x, s.pending p = some (x, false)
  mem_positions : ∀ p, s.pending p ≠ none → p ∈ s.positions
  perm : (e.retained.map fun r => (r.1, r.2.1)).Perm ((e.emitted.map fun r => (r.1, r.2.1)) ++ s.waiting)
  increasing : e.emitted.Pairwise fun a b => a.1 < b.1
  emitted_last : e.emitted.getLast?.map Prod.fst = some l
  marked : e.emitted.head?.map (·.2.2) = some mark
  retained_le : ∀ r ∈ e.retained, r.1 ≤ h
  remembered : ∀ r ∈ e.retained, h - window ≤ r.1 → s.recent (r.1 % (window + 1)) = some (r.1, r.2.2)
  recent : ∀ i r, s.recent i = some r → ∃ x, (r.1, x, r.2) ∈ e.retained
  gap : s.gapCount = base + e.gap

variable {base h c l p : ℤ} {mark : Bool} {e : Epoch α β} {s s' : SampleReorder α β}

/-- Only the dictionary's entries for the heap's positions matter. -/
theorem filterMap_update_of_not_mem {positions : List ℤ} {pending : ℤ → Option (Sample α × Bool)}
    {held : Option (Sample α × Bool)} (hp : p ∉ positions) :
    (positions.filterMap fun q => (update pending p held q).map fun held => (q, held.1)) =
      positions.filterMap fun q => (pending q).map fun held => (q, held.1) := by
  refine List.filterMap_congr fun q hq => ?_
  rw [update_of_ne (ne_of_mem_of_not_mem hq hp)]

namespace Tracks

/-- Nothing was emitted beyond the last position. -/
theorem emitted_le (ht : Tracks base mark e s h c l) : ∀ a ∈ e.emitted, a.1 ≤ l := by
  obtain ⟨last, hlast, rfl⟩ := Option.map_eq_some_iff.mp ht.emitted_last
  obtain ⟨before, hbefore⟩ := List.getLast?_eq_some_iff.mp hlast
  have hincreasing := ht.increasing
  rw [hbefore, List.pairwise_append] at hincreasing
  intro a ha
  rw [hbefore, List.mem_append, List.mem_singleton] at ha
  rcases ha with ha | rfl
  · exact (hincreasing.2.2 a ha last List.mem_cons_self).le
  · exact le_rfl

/-- The oldest waiting sample is emitted without a discontinuity. -/
theorem emit (ht : Tracks base mark e s h c l) {rest : List ℤ} (hpositions : s.positions = p :: rest) :
    ∃ s' x, Reorder.emit p { s with positions := rest } = some (s', [.emitted p x false]) ∧
      s'.positions = rest ∧ Tracks base mark (e.emit p x false) s' h (p + 1) p := by
  have hclimbs := hpositions ▸ ht.climbs
  obtain ⟨hlp, hpl, hrest⟩ := hclimbs
  have hnew : p ∉ rest := fun hmem => (hrest.lt_of_mem hmem).ne rfl
  obtain ⟨x, hx⟩ := ht.pending p (hpositions ▸ List.mem_cons_self)
  have hnarrow : tooWide s.last p = false := by
    rw [tooWide, ht.last, Option.any_some, decide_eq_false_iff_not]
    omega
  have hemit : Reorder.emit p { s with positions := rest } = some ({ s with
      positions := rest
      pending := update s.pending p none
      gapCount := s.gapCount + countedGap s.last p
      last := some p
      cursor := some (p + 1) }, [.emitted p x false]) := by
    simp [Reorder.emit, hx, hnarrow]
  refine ⟨_, x, hemit, rfl, ?_⟩
  exact {
    high := ht.high
    cursor := rfl
    last := rfl
    last_lt := by omega
    cursor_le := fun q hq => hrest.lt_of_mem hq
    climbs := hrest
    summit := by rw [← ht.summit, hpositions, summit_cons]
    pending := by
      intro q hq
      simp only []
      rw [update_of_ne (ne_of_mem_of_not_mem hq hnew)]
      exact ht.pending q (hpositions ▸ List.mem_cons_of_mem _ hq)
    mem_positions := by
      intro q hq
      by_cases hqp : q = p
      · subst hqp
        exact absurd (update_self ..) hq
      · simp only [update_of_ne hqp] at hq
        exact (List.mem_cons.mp (hpositions ▸ ht.mem_positions q hq)).resolve_left hqp
    perm := by
      have hwaiting : s.waiting = (p, x) ::
          rest.filterMap fun q => (update s.pending p none q).map fun held => (q, held.1) := by
        rw [SampleReorder.waiting, hpositions, filterMap_update_of_not_mem hnew]
        exact List.filterMap_cons_some (by rw [hx]; rfl)
      refine ht.perm.trans (.of_eq ?_)
      rw [hwaiting, Epoch.emit, List.map_append, List.append_assoc]
      rfl
    increasing := by
      rw [Epoch.emit, List.pairwise_append]
      refine ⟨ht.increasing, List.pairwise_singleton .., fun a ha b hb => ?_⟩
      rw [List.mem_singleton.mp hb]
      exact (ht.emitted_le a ha).trans_lt hlp
    emitted_last := by simp [Epoch.emit]
    marked := by
      have hfirst := ht.marked
      cases hemitted : e.emitted with
      | nil => rw [hemitted] at hfirst; cases hfirst
      | cons first rest =>
        rw [hemitted] at hfirst
        rw [Epoch.emit, hemitted]
        exact hfirst
    retained_le := ht.retained_le
    remembered := ht.remembered
    recent := ht.recent
    gap := by
      rw [Epoch.gap_emit ht.emitted_last, ← Int.add_assoc, ← ht.gap]
      simp [countedGap, ht.last] }

/-- The retransmit counter is not looked at. -/
theorem count (ht : Tracks base mark e s h c l) (n : ℕ) :
    Tracks base mark e { s with retransmitCount := n } h c l where
  __ := ht

/-- A hole that is no longer repairable is passed over. -/
theorem advance (ht : Tracks base mark e s h c l) (hhead : ∀ p ∈ s.positions, c < p) :
    Tracks base mark e { s with cursor := some (c + 1) } h (c + 1) l where
  __ := ht
  cursor := rfl
  last_lt := ht.last_lt.trans (by omega)
  cursor_le := fun p hp => hhead p hp

/-- While the cursor waits for a repairable hole, the heap holds no more than fit above it. -/
theorem length_le (ht : Tracks base mark e s h c l) (hhead : ∀ p ∈ s.positions, c < p)
    (hnear : h - c ≤ window) : (s.positions.length : ℤ) ≤ window := by
  cases hpositions : s.positions with
  | nil => exact Int.le_of_lt (by decide)
  | cons p rest =>
    have hclimbs := hpositions ▸ ht.climbs
    obtain ⟨hlp, hpl, hrest⟩ := hclimbs
    have hlast := ht.last_lt
    have hcursor : Climbs (maxForwardGap + 1) c (p :: rest) :=
      ⟨hhead p (hpositions ▸ List.mem_cons_self), by omega, hrest⟩
    have hsummit : SlimeReceiver.summit c (p :: rest) = h := by
      rw [← ht.summit, hpositions, summit_cons, summit_cons]
    have hlength := hcursor.length_le
    omega

/-- What a loop of `_drain` does to the epoch: it ends, it only emits, and it leaves no more than a window of
samples waiting. -/
theorem drainLoop {final : Bool} {turns : ℕ} (ht : Tracks base mark e s h c l)
    (hturns : s.positions.length + (h - c).toNat < turns) :
    ∃ s' es e' c' l', Reorder.drainLoop final turns s = some (s', es) ∧
      (∀ ev ∈ es, ∃ p x d, ev = .emitted p x d) ∧
      (∀ older, es.foldl epochsAfter (e :: older) = e' :: older) ∧
      Tracks base mark e' s' h c' l' ∧ (s'.positions.length : ℤ) ≤ window ∧
      (final = true → s'.positions = []) := by
  induction turns generalizing s e c l with
  | zero => omega
  | succ turns ih =>
    cases hpositions : s.positions with
    | nil =>
      refine ⟨s, [], e, c, l, drainLoop_of_empty hpositions, by simp, fun _ => rfl, ht, ?_,
        fun _ => hpositions⟩
      rw [hpositions]
      exact Int.le_of_lt (by decide)
    | cons p rest =>
      have hcp := ht.cursor_le p (hpositions ▸ List.mem_cons_self)
      have hlength : s.positions.length = rest.length + 1 := by rw [hpositions, List.length_cons]
      by_cases hwait : !final ∧ some p ≠ s.cursor
      · -- the head waits for a hole
        have hne : p ≠ c := fun heq => hwait.2 (by rw [heq, ht.cursor])
        have hhead : ∀ q ∈ s.positions, c < q := by
          intro q hq
          rw [hpositions] at hq
          have hclimbs := hpositions ▸ ht.climbs
          rcases List.mem_cons.mp hq with rfl | hq
          · omega
          · have hpq := hclimbs.2.2.lt_of_mem hq
            omega
        by_cases hnear : h - c ≤ window
        · refine ⟨s, [], e, c, l, ?_, by simp, fun _ => rfl, ht, ht.length_le hhead hnear, ?_⟩
          · rw [drainLoop_of_wait hpositions hwait ht.high ht.cursor, if_pos hnear]
          · intro hfinal
            simp [hfinal] at hwait
        · obtain ⟨s', es, e', c', l', hloop, hrest⟩ := ih (ht.advance hhead) (by
            simp only [window] at hnear ⊢
            omega)
          refine ⟨s', es, e', c', l', ?_, hrest⟩
          rw [drainLoop_of_wait hpositions hwait ht.high ht.cursor, if_neg hnear]
          exact hloop
      · -- the head is emitted
        obtain ⟨s₁, x, hemit, hpositions₁, ht₁⟩ := ht.emit hpositions
        obtain ⟨s', es, e', c', l', hloop, hemissions, hepochs, hrest⟩ := ih ht₁ (by
          rw [hpositions₁]
          omega)
        refine ⟨s', .emitted p x false :: es, e', c', l', drainLoop_of_emit hpositions hwait hemit hloop, ?_,
          fun older => ?_, hrest⟩
        · intro ev hev
          rcases List.mem_cons.mp hev with rfl | hev
          · exact ⟨p, x, false, rfl⟩
          · exact hemissions ev hev
        · exact hepochs older

/-- The method, which gives its loop more turns than it takes. -/
theorem drain (final : Bool) (ht : Tracks base mark e s h c l) :
    ∃ s' es e' c' l', Reorder.drain final s = some (s', es) ∧
      (∀ ev ∈ es, ∃ p x d, ev = .emitted p x d) ∧
      (∀ older, es.foldl epochsAfter (e :: older) = e' :: older) ∧
      Tracks base mark e' s' h c' l' ∧ (s'.positions.length : ℤ) ≤ window ∧
      (final = true → s'.positions = []) := by
  refine ht.drainLoop ?_
  rw [drainTurns, ht.high, ht.cursor]
  exact Nat.lt_succ_self _

/-- A position that is not remembered was not retained. -/
theorem ne_of_recentPayload (ht : Tracks base mark e s h c l) (hrecent : recentPayload s p = none)
    (hlow : h - window ≤ p) : ∀ r ∈ e.retained, r.1 ≠ p := by
  rintro ⟨q, x, b⟩ hr rfl
  have hremembered := ht.remembered _ hr hlow
  simp [recentPayload, hremembered] at hrecent

/-- A remembered payload was retained at its position. -/
theorem of_recentPayload (ht : Tracks base mark e s h c l) {b : β} (hrecent : recentPayload s p = some b) :
    ∃ x, (p, x, b) ∈ e.retained := by
  obtain ⟨⟨q, b'⟩, hslot, hpayload⟩ := Option.bind_eq_some_iff.mp hrecent
  simp only [Option.ite_none_right_eq_some, Option.some.injEq] at hpayload
  obtain ⟨rfl, rfl⟩ := hpayload
  exact ht.recent _ _ hslot

/-- Nor does a position wait in the heap that was not retained. -/
theorem not_mem_positions (ht : Tracks base mark e s h c l) (hfresh : ∀ r ∈ e.retained, r.1 ≠ p) :
    p ∉ s.positions := by
  intro hp
  obtain ⟨x, hx⟩ := ht.pending p hp
  have hwaiting : (p, x) ∈ s.waiting := List.mem_filterMap.mpr ⟨p, hp, by rw [hx]; rfl⟩
  obtain ⟨r, hr, heq⟩ := List.mem_map.mp (ht.perm.mem_iff.mpr (List.mem_append_right _ hwaiting))
  exact hfresh r hr (Prod.mk.inj heq).1

/-- A new sample, not behind the cursor and not too far ahead, joins the epoch. -/
theorem insert (ht : Tracks base mark e s h c l) {x : Sample α} {b : β} {n : ℕ}
    (hfresh : ∀ r ∈ e.retained, r.1 ≠ p) (hlow : h - window ≤ p) (hcursor : c ≤ p)
    (hhigh : p ≤ h + (maxForwardGap + 1)) :
    Tracks base mark (e.retain p x b) { s with
        retransmitCount := n
        high := some (max h p)
        recent := update s.recent (p % (window + 1)) (some (p, b))
        pending := update s.pending p (some (x, false))
        positions := s.positions.orderedInsert (· ≤ ·) p } (max h p) c l := by
  have hnew := ht.not_mem_positions hfresh
  have hlp : l < p := ht.last_lt.trans_le hcursor
  exact {
    high := rfl
    cursor := ht.cursor
    last := ht.last
    last_lt := ht.last_lt
    cursor_le := by
      intro q hq
      rcases (List.mem_orderedInsert _).mp hq with rfl | hq
      · exact hcursor
      · exact ht.cursor_le q hq
    climbs := ht.climbs.insert hlp (ht.summit.symm ▸ hhigh) hnew
    summit := by rw [ht.climbs.summit_insert hlp, ht.summit]
    pending := by
      intro q hq
      by_cases hqp : q = p
      · exact ⟨x, by rw [hqp]; exact update_self ..⟩
      · rw [List.mem_orderedInsert] at hq
        simp only [update_of_ne hqp]
        exact ht.pending q (hq.resolve_left hqp)
    mem_positions := by
      intro q hq
      rw [List.mem_orderedInsert]
      by_cases hqp : q = p
      · exact .inl hqp
      · simp only [update_of_ne hqp] at hq
        exact .inr (ht.mem_positions q hq)
    perm := by
      have hwaiting := (List.perm_orderedInsert (· ≤ ·) p s.positions).filterMap
        fun q => (update s.pending p (some (x, false)) q).map fun held => (q, held.1)
      rw [List.filterMap_cons_some (by rw [update_self]; rfl), filterMap_update_of_not_mem hnew] at hwaiting
      rw [Epoch.retain, List.map_append]
      have hmiddle : ((p, x) :: ((e.emitted.map fun r => (r.1, r.2.1)) ++ s.waiting)).Perm
          ((e.emitted.map fun r => (r.1, r.2.1)) ++ (p, x) :: s.waiting) := List.perm_middle.symm
      exact (List.perm_append_singleton ..).trans
        ((ht.perm.cons _).trans (hmiddle.trans (hwaiting.symm.append_left _)))
    increasing := ht.increasing
    emitted_last := ht.emitted_last
    marked := ht.marked
    retained_le := by
      intro r hr
      rcases List.mem_append.mp hr with hr | hr
      · exact (ht.retained_le r hr).trans (le_max_left _ _)
      · rw [List.mem_singleton.mp hr]
        exact le_max_right _ _
    remembered := by
      intro r hr hnear
      rcases List.mem_append.mp hr with hr | hr
      · -- two positions so close have different slots
        have hne := hfresh r hr
        have hle := ht.retained_le r hr
        have hslot : r.1 % (window + 1) ≠ p % (window + 1) := by
          simp only [window] at hlow hnear ⊢
          omega
        simp only [update_of_ne hslot]
        exact ht.remembered r hr (by omega)
      · rw [List.mem_singleton.mp hr]
        exact update_self ..
    recent := by
      intro i r hr
      by_cases hi : i = p % (window + 1)
      · simp only [hi, update_self, Option.some.injEq] at hr
        exact ⟨x, List.mem_append_right _ (by rw [← hr]; exact List.mem_cons_self)⟩
      · simp only [update_of_ne hi] at hr
        obtain ⟨y, hy⟩ := ht.recent i r hr
        exact ⟨y, List.mem_append_left _ hy⟩
    gap := ht.gap }

/-- An epoch with an empty heap is complete. -/
theorem complete (ht : Tracks base mark e s h c l) (hpositions : s.positions = []) : e.Complete where
  increasing := ht.increasing
  perm := by
    have hperm := ht.perm
    rw [SampleReorder.waiting, hpositions, List.filterMap_nil, List.append_nil] at hperm
    exact hperm.symm

end Tracks

/-- The first sample of an epoch is emitted at once. -/
theorem insert_first {x : Sample α} {b : β} {d : Bool} (hpositions : s.positions = [])
    (hpending : ∀ q, s.pending q = none) :
    ∃ s', insert p x b d { s with
        recent := fun _ => none
        high := some p
        cursor := some p
        last := none } = some (s', [.retained p x b, .emitted p x d]) ∧ s'.positions = [] ∧
      Tracks s.gapCount d ⟨[(p, x, b)], [(p, x, d)]⟩ s' p (p + 1) p := by
  have hinserted : ∃ s', insert p x b d { s with
      recent := fun _ => none
      high := some p
      cursor := some p
      last := none } = some (s', [.retained p x b, .emitted p x d]) ∧ s' = { s with
        recent := update (fun _ => none) (p % (window + 1)) (some (p, b))
        pending := update (update s.pending p (some (x, d))) p none
        high := some p
        cursor := some (p + 1)
        last := some p
        gapCount := if d then s.gapCount else s.gapCount + 0
        unknownBoundaries := if d then s.unknownBoundaries + 1 else s.unknownBoundaries } := by
    refine ⟨_, ?_, rfl⟩
    simp [insert, drain, drainTurns, drainLoop, hpositions, emit, tooWide, countedGap]
  obtain ⟨s', hinsert, rfl⟩ := hinserted
  refine ⟨_, hinsert, hpositions, ?_⟩
  exact {
    high := rfl
    cursor := rfl
    last := rfl
    last_lt := by omega
    cursor_le := by simp [hpositions]
    climbs := by simp [hpositions]
    summit := by simp [hpositions]
    pending := by simp [hpositions]
    mem_positions := by
      intro q hq
      by_cases hqp : q = p <;> simp [hqp, hpending] at hq
    perm := by simp [SampleReorder.waiting, hpositions]
    increasing := List.pairwise_singleton ..
    emitted_last := rfl
    marked := rfl
    retained_le := by simp
    remembered := by
      intro r hr _
      rw [List.mem_singleton.mp hr]
      exact update_self (p % (window + 1)) (some (p, b)) fun _ => none
    recent := by
      intro i r hr
      by_cases hi : i = p % (window + 1)
      · simp only [hi, update_self, Option.some.injEq] at hr
        exact ⟨x, by rw [← hr]; exact List.mem_cons_self⟩
      · simp [update_of_ne hi] at hr
    gap := by simp [Epoch.gap] }

/-! ## Calls -/

/-- A position agrees with the sample's sequence number, and a sample is refused only when the current epoch
has retained the same payload at the same position. -/
def Justified (earlier : List (ReorderEvent α β)) : ReorderEvent α β → Prop
  | .retained position sample _ => position % 65536 = sample.seq.toNat
  | .refused position sample payload => position % 65536 = sample.seq.toNat ∧
    ∃ e older, epochs earlier = e :: older ∧ ∃ sample', (position, sample', payload) ∈ e.retained
  | _ => True

/-- The samples `push` has answered, with their payloads. -/
def answered (trace : List (ReorderEvent α β)) : List (Sample α × β) :=
  trace.filterMap fun
    | .retained _ sample payload | .refused _ sample payload => some (sample, payload)
    | _ => none

/-- The history ends in the epoch `e`, and the ones before it are complete. -/
structure OnEpoch (trace : List (ReorderEvent α β)) (s : SampleReorder α β) (e : Epoch α β)
    (older : List (Epoch α β)) (mark : Bool) (h c l : ℤ) : Prop where
  epochs : epochs trace = e :: older
  tracks : Tracks (older.map Epoch.gap).sum mark e s h c l
  complete : ∀ o ∈ older, o.Complete
  marked : older ≠ [] → mark = true
  olderMarked : ∀ o ∈ older.dropLast, o.Marked

/-- No epoch has been opened, or the history ends in one. -/
def Follows (trace : List (ReorderEvent α β)) (s : SampleReorder α β) : Prop :=
  (epochs trace = [] ∧ s = .init) ∨ ∃ e older mark h c l, OnEpoch trace s e older mark h c l

/-- What holds between two calls. -/
structure Settled (trace : List (ReorderEvent α β)) (s : SampleReorder α β) : Prop where
  follows : Follows trace s
  justified : EachAfter Justified trace
  length_le : (s.positions.length : ℤ) ≤ window

variable {trace es : List (ReorderEvent α β)} {older : List (Epoch α β)}

theorem justified_emitted (hes : ∀ ev ∈ es, ∃ p x d, ev = .emitted p x d)
    (earlier : List (ReorderEvent α β)) (ev : ReorderEvent α β) (hev : ev ∈ es) : Justified earlier ev := by
  obtain ⟨p, x, d, rfl⟩ := hes ev hev
  trivial

theorem answered_emitted (hes : ∀ ev ∈ es, ∃ p x d, ev = .emitted p x d) : answered es = [] := by
  refine List.filterMap_eq_nil_iff.mpr fun ev hev => ?_
  obtain ⟨p, x, d, rfl⟩ := hes ev hev
  rfl

theorem OnEpoch.drain (final : Bool) (ho : OnEpoch trace s e older mark h c l) :
    ∃ s' es e' c' l', Reorder.drain final s = some (s', es) ∧
      (∀ ev ∈ es, ∃ p x d, ev = .emitted p x d) ∧
      OnEpoch (trace ++ es) s' e' older mark h c' l' ∧ (s'.positions.length : ℤ) ≤ window ∧
      (final = true → s'.positions = []) := by
  obtain ⟨s', es, e', c', l', hdrain, hemissions, hepochs, htracks, hlength, hempty⟩ :=
    ho.tracks.drain final
  refine ⟨s', es, e', c', l', hdrain, hemissions, ?_, hlength, hempty⟩
  exact { ho with
    epochs := by rw [epochs_append, ho.epochs, hepochs]
    tracks := htracks }

/-- `finish` completes the current epoch. -/
theorem Settled.finish (hs : Settled trace s) : ∃ s' es, Reorder.finish s = some (s', es) ∧
    (∀ ev ∈ es, ∃ p x d, ev = .emitted p x d) ∧ Settled (trace ++ es) s' ∧ s'.positions = [] ∧
      (epochs trace = [] → epochs (trace ++ es) = []) := by
  rcases hs.follows with ⟨hnone, rfl⟩ | ⟨e, older, mark, h, c, l, ho⟩
  · rw [Reorder.finish]
    refine ⟨.init, [], rfl, by simp, ?_, rfl, ?_⟩
    · rw [List.append_nil]
      exact hs
    · rw [List.append_nil]
      exact id
  · obtain ⟨s', es, e', c', l', hdrain, hemissions, ho', hlength, hempty⟩ := ho.drain true
    refine ⟨s', es, hdrain, hemissions, ?_, hempty rfl, fun hnone => ?_⟩
    · exact {
        follows := .inr ⟨e', older, mark, h, c', l', ho'⟩
        justified := hs.justified.append (justified_emitted hemissions)
        length_le := hlength }
    · rw [ho.epochs] at hnone
      cases hnone

/-- All epochs are over. -/
structure Closed (trace : List (ReorderEvent α β)) (s : SampleReorder α β) : Prop where
  pending : ∀ q, s.pending q = none
  gap : s.gapCount = ((epochs trace).map Epoch.gap).sum
  complete : ∀ e ∈ epochs trace, e.Complete
  marked : ∀ e ∈ (epochs trace).dropLast, e.Marked

theorem Follows.closed (hf : Follows trace s) (hpositions : s.positions = []) : Closed trace s := by
  rcases hf with ⟨hnone, rfl⟩ | ⟨e, older, mark, h, c, l, ho⟩
  · exact {
      pending := fun _ => rfl
      gap := by rw [hnone]; rfl
      complete := by simp [hnone]
      marked := by simp [hnone] }
  · refine ⟨fun q => ?_, ?_, ?_, ?_⟩
    · by_contra hq
      exact List.not_mem_nil (hpositions ▸ ho.tracks.mem_positions q hq)
    · rw [ho.tracks.gap, ho.epochs, List.map_cons, List.sum_cons, Int.add_comm]
    · rw [ho.epochs]
      exact List.forall_mem_cons.mpr ⟨ho.tracks.complete hpositions, ho.complete⟩
    · rw [ho.epochs]
      cases older with
      | nil => simp
      | cons o older =>
        rw [List.dropLast_cons_cons]
        refine List.forall_mem_cons.mpr ⟨?_, ho.olderMarked⟩
        rw [Epoch.Marked, ho.tracks.marked, ho.marked (List.cons_ne_nil _ _)]

/-- `_start` completes the current epoch and opens another one. -/
theorem Settled.start (hs : Settled trace s) {x : Sample α} {b : β} {d : Bool}
    (hmarked : epochs trace ≠ [] → d = true) : ∃ s' es, Reorder.start x b d s = some (s', es) ∧
      answered es = [(x, b)] ∧ Settled (trace ++ es) s' := by
  obtain ⟨s₁, es₁, hfinish, hemissions, hs₁, hpositions, hnone⟩ := hs.finish
  have hclosed := hs₁.follows.closed hpositions
  obtain ⟨s', hinsert, hpositions', htracks⟩ :=
    insert_first (p := x.seq.toNat) (x := x) (b := b) (d := d) hpositions hclosed.pending
  refine ⟨s', es₁ ++ [ReorderEvent.opened, .retained x.seq.toNat x b, .emitted x.seq.toNat x d], ?_, ?_, ?_⟩
  · simp only [Reorder.start, hfinish, Option.bind_some, hinsert, Option.map_some]
  · have hquiet : answered es₁ = [] := answered_emitted hemissions
    rw [answered] at hquiet
    rw [answered, List.filterMap_append, hquiet]
    rfl
  · rw [← List.append_assoc]
    refine ⟨.inr ⟨_, epochs (trace ++ es₁), d, _, _, _, ?_, hclosed.gap ▸ htracks, hclosed.complete,
      fun hold => hmarked (mt hnone hold), hclosed.marked⟩, hs₁.justified.append ?_, ?_⟩
    · rw [epochs_append]
      rfl
    · intro earlier ev hev
      simp only [List.mem_cons, List.not_mem_nil, or_false] at hev
      rcases hev with rfl | rfl | rfl
      · trivial
      · have hseq := x.seq.isLt
        simp only [Justified]
        omega
      · trivial
    · rw [hpositions']
      exact Int.le_of_lt (by decide)

/-- `push` on an epoch that goes on. -/
theorem OnEpoch.insert (ho : OnEpoch trace s e older mark h c l) {x : Sample α} {b : β} {n : ℕ}
    (hfresh : ∀ r ∈ e.retained, r.1 ≠ p) (hlow : h - window ≤ p) (hcursor : c ≤ p)
    (hhigh : p ≤ h + (maxForwardGap + 1)) :
    ∃ s' es, Reorder.insert p x b false { s with retransmitCount := n, high := some (max h p) } =
        some (s', .retained p x b :: es) ∧
      (∀ ev ∈ es, ∃ p x d, ev = .emitted p x d) ∧ Follows (trace ++ .retained p x b :: es) s' ∧
      (s'.positions.length : ℤ) ≤ window := by
  have hinserted : OnEpoch (trace ++ [ReorderEvent.retained p x b]) _ (e.retain p x b) older mark (max h p) c l :=
    { ho with
      epochs := by rw [epochs_append, ho.epochs]; rfl
      tracks := ho.tracks.insert (n := n) hfresh hlow hcursor hhigh }
  obtain ⟨s', es, e', c', l', hdrain, hemissions, ho', hlength, -⟩ := hinserted.drain false
  rw [List.append_assoc, List.singleton_append] at ho'
  refine ⟨s', es, ?_, hemissions, .inr ⟨e', older, mark, max h p, c', l', ho'⟩, hlength⟩
  rw [Reorder.insert]
  simp only [hdrain, Option.map_some]

/-- The signed distance moves the high-water mark to a position of the sample's sequence number. -/
theorem position_emod (seq : BitVec 16) (high : ℤ) : (high + signedDelta seq high) % 65536 = seq.toNat := by
  have hseq := seq.isLt
  rw [signedDelta]
  omega

theorem settled_init : Settled ([] : List (ReorderEvent α β)) .init where
  follows := .inl ⟨rfl, rfl⟩
  justified := eachAfter_nil
  length_le := by
    change (0 : ℤ) ≤ 200
    decide

variable [DecidableEq β]

section PushCases

variable {x : Sample α} {b earlier : β}

theorem push_of_far (hhigh : s.high = some h)
    (hfar : h + signedDelta x.seq h < h - window ∨ maxForwardGap + 1 < signedDelta x.seq h) :
    push x b false s = Reorder.start x b true s := by
  rw [push, hhigh]
  exact if_pos hfar

theorem push_of_recent (hhigh : s.high = some h)
    (hfar : ¬(h + signedDelta x.seq h < h - window ∨ maxForwardGap + 1 < signedDelta x.seq h))
    (hrecent : recentPayload s (h + signedDelta x.seq h) = some earlier) :
    push x b false s = if earlier = b then
      some ({ s with retransmitCount := s.retransmitCount + 1 }, [.refused (h + signedDelta x.seq h) x b])
    else Reorder.start x b true s := by
  cases s
  subst hhigh
  rw [push]
  refine (if_neg hfar).trans ?_
  rw [hrecent]

theorem push_of_new (hhigh : s.high = some h) (hcursor : s.cursor = some c)
    (hfar : ¬(h + signedDelta x.seq h < h - window ∨ maxForwardGap + 1 < signedDelta x.seq h))
    (hrecent : recentPayload s (h + signedDelta x.seq h) = none) :
    push x b false s = if h + signedDelta x.seq h < c then Reorder.start x b true s
    else Reorder.insert (h + signedDelta x.seq h) x b false { s with
      retransmitCount := if signedDelta x.seq h < 0 then s.retransmitCount + 1 else s.retransmitCount
      high := some (max h (h + signedDelta x.seq h)) } := by
  cases s
  subst hhigh hcursor
  rw [push]
  refine (if_neg hfar).trans ?_
  rw [hrecent]

end PushCases

/-- Every push succeeds, is answered once, and leaves no more than a window of samples waiting. -/
theorem Settled.push (hs : Settled trace s) (x : Sample α) (b : β) (d : Bool) :
    ∃ s' es, Reorder.push x b d s = some (s', es) ∧ answered es = [(x, b)] ∧ Settled (trace ++ es) s' := by
  have hstart := hs.start (x := x) (b := b) (d := true) fun _ => rfl
  rcases hs.follows with ⟨hnone, rfl⟩ | ⟨e, older, mark, h, c, l, ho⟩
  · exact hs.start fun hold => absurd hnone hold
  · cases d with
    | true =>
      rw [Reorder.push, ho.tracks.high]
      exact hstart
    | false =>
      by_cases hfar : h + signedDelta x.seq h < h - window ∨ maxForwardGap + 1 < signedDelta x.seq h
      · rw [push_of_far ho.tracks.high hfar]
        exact hstart
      have hnear := not_or.mp hfar
      rw [Int.not_lt, Int.not_lt] at hnear
      cases hrecent : recentPayload s (h + signedDelta x.seq h) with
      | some earlier =>
        rw [push_of_recent ho.tracks.high hfar hrecent]
        split
        case isTrue heq =>
          -- an exact duplicate
          obtain ⟨y, hy⟩ := ho.tracks.of_recentPayload hrecent
          refine ⟨_, _, rfl, rfl, .inr ⟨e, older, mark, h, c, l, ?_⟩, eachAfter_snoc.mpr ⟨hs.justified, ?_⟩,
            hs.length_le⟩
          · exact { ho with
              epochs := by rw [epochs_append, ho.epochs]; rfl
              tracks := ho.tracks.count _ }
          · exact ⟨position_emod x.seq h, e, older, ho.epochs, y, heq ▸ hy⟩
        case isFalse => exact hstart
      | none =>
        rw [push_of_new ho.tracks.high ho.tracks.cursor hfar hrecent]
        split
        case isTrue => exact hstart
        case isFalse hcursor =>
          obtain ⟨s', es, hinsert, hemissions, hfollows, hlength⟩ :=
            ho.insert (x := x) (b := b)
              (n := if signedDelta x.seq h < 0 then s.retransmitCount + 1 else s.retransmitCount)
              (ho.tracks.ne_of_recentPayload hrecent hnear.1) hnear.1 (Int.not_lt.mp hcursor) (by omega)
          refine ⟨s', _, hinsert, ?_, hfollows, ?_, hlength⟩
          · have hquiet : answered es = [] := answered_emitted hemissions
            exact congrArg ((x, b) :: ·) hquiet
          · rw [← List.singleton_append, ← List.append_assoc]
            have hjustified : Justified trace (.retained (h + signedDelta x.seq h) x b) := position_emod x.seq h
            exact (eachAfter_snoc.mpr ⟨hs.justified, hjustified⟩).append (justified_emitted hemissions)

/-- The samples a call hands in. -/
def ReorderCall.handed : ReorderCall α β → Option (Sample α × β)
  | .push sample payload _ => some (sample, payload)
  | .finish => none

/-- Any calls succeed, and every sample handed in is answered once. -/
theorem Settled.exec (hs : Settled trace s) (calls : List (ReorderCall α β)) :
    ∃ s' es, (reorderSystem α β).exec s calls = some (s', es) ∧
      answered es = calls.filterMap ReorderCall.handed ∧ Settled (trace ++ es) s' := by
  induction calls generalizing trace s with
  | nil => exact ⟨s, [], rfl, rfl, by rw [List.append_nil]; exact hs⟩
  | cons call calls ih =>
    obtain ⟨s₁, es₁, hcall, hanswered, hs₁⟩ : ∃ s₁ es₁, (reorderSystem α β).step s call = some (s₁, es₁) ∧
        answered es₁ = call.handed.toList ∧ Settled (trace ++ es₁) s₁ := by
      cases call with
      | push x b d => exact hs.push x b d
      | finish =>
        obtain ⟨s₁, es₁, hfinish, hemissions, hs₁, -⟩ := hs.finish
        exact ⟨s₁, es₁, hfinish, answered_emitted hemissions, hs₁⟩
    obtain ⟨s', es, hexec, hrest, hs'⟩ := ih hs₁
    refine ⟨s', es₁ ++ es, EventSystem.exec_cons hcall hexec, ?_, ?_⟩
    · rw [answered, List.filterMap_append, ← answered, ← answered, hanswered, hrest]
      cases call <;> rfl
    · rw [← List.append_assoc]
      exact hs'

/-- **Reordering conserves samples.** Any calls of `push` and `finish` succeed, with every loop of `_drain`
ended, and every sample handed in is retained or refused, the latter only when the current epoch has retained
the same payload at the same position. At most `WINDOW` samples wait after any of them, and a `finish` then
leaves nothing but complete epochs, all but the oldest beginning with a marked discontinuity, and the gap
count their gaps add up to. -/
theorem samples_conserved (calls : List (ReorderCall α β)) :
    ∃ s trace s' tail, (reorderSystem α β).exec .init calls = some (s, trace) ∧
      answered trace = calls.filterMap ReorderCall.handed ∧ EachAfter Justified trace ∧
      (s.positions.Nodup ∧ (∀ p, s.pending p ≠ none ↔ p ∈ s.positions) ∧ (s.positions.length : ℤ) ≤ window) ∧
      finish s = some (s', tail) ∧ answered tail = [] ∧ s'.positions = [] ∧
      s'.gapCount = ((epochs (trace ++ tail)).map Epoch.gap).sum ∧
      (∀ e ∈ epochs (trace ++ tail), e.Complete) ∧ ∀ e ∈ (epochs (trace ++ tail)).dropLast, e.Marked := by
  obtain ⟨s, trace, hexec, hanswered, hs⟩ := settled_init.exec calls
  rw [List.nil_append] at hs
  obtain ⟨s', tail, hfinish, hemissions, hs', hpositions, -⟩ := hs.finish
  have hclosed := hs'.follows.closed hpositions
  refine ⟨s, trace, s', tail, hexec, hanswered, hs.justified, ⟨?_, ?_, hs.length_le⟩, hfinish,
    answered_emitted hemissions, hpositions, hclosed.gap, hclosed.complete, hclosed.marked⟩
  · rcases hs.follows with ⟨-, rfl⟩ | ⟨e, older, mark, h, c, l, ho⟩
    · exact .nil
    · exact ho.tracks.climbs.pairwise.imp ne_of_lt
  · intro p
    rcases hs.follows with ⟨-, rfl⟩ | ⟨e, older, mark, h, c, l, ho⟩
    · simp [SampleReorder.init]
    · refine ⟨ho.tracks.mem_positions p, fun hp => ?_⟩
      obtain ⟨x, hx⟩ := ho.tracks.pending p hp
      rw [hx]
      exact Option.some_ne_none _

/-- Samples that arrive out of order around the wrap of the sequence number. -/
example : ((reorderSystem Unit ℕ).exec .init
    [.push ⟨65534, ()⟩ 0 false, .push ⟨1, ()⟩ 0 false, .push ⟨65535, ()⟩ 0 false, .push ⟨0, ()⟩ 0 false]).map
      (fun r => r.2.filterMap fun
        | .emitted position .. => some position
        | _ => none) = some [65534, 65535, 65536, 65537] := by decide

end Reorder

end SlimeReceiver
