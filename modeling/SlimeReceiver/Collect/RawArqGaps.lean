import SlimeReceiver.Collect.RawArq

/-! # Gaps of the raw data

What becomes of the numbers of a forward gap. Room is measured before stale entries are evicted, and the
oldest numbers go first.

* **`GapCovered`** — every number of a gap that can still be had is asked for, or the queue is full.
* **`GapFits`** — the gap has room, or nothing becomes stale with it.
* **`raw_arq_complete`** — the two are the same, at every gap of every history. -/

namespace SlimeReceiver

/-! ## Coverage -/

/-- A number of the gap before a packet. -/
def MissingAt (received : BitVec 16) (a : RawArq) (q : BitVec 16) : Prop :=
  (q - a.expectedSeq).toNat < (received - a.expectedSeq).toNat

/-- After the packet of a gap, every number of the gap less than 96 behind what is then expected is in the queue,
or the queue holds eight numbers less than 96 behind. -/
def GapCovered (received : BitVec 16) (a : RawArq) : Prop :=
  let next := (rawArqProcess received a).1
  (∀ q, MissingAt received a q → (next.expectedSeq - q).toNat < 96 → q ∈ next.gapQueue) ∨
    next.gapQueue.length = 8 ∧ ∀ q ∈ next.gapQueue, (next.expectedSeq - q).toNat < 96

/-- The gap is no longer than the free part of the queue; or no entry of the queue becomes stale, and neither does
the oldest number of the gap if it is added. -/
def GapFits (received : BitVec 16) (a : RawArq) : Prop :=
  (received - a.expectedSeq).toNat ≤ 8 - a.gapQueue.length ∨
    (∀ q ∈ a.gapQueue, (received + 1 - q).toNat < 96) ∧
      (a.gapQueue.length < 8 → (received - a.expectedSeq).toNat < 95)

/-- Something holds at every gap of a sequence of packets. -/
def EveryGap (P : BitVec 16 → RawArq → Prop) : RawArq → List (BitVec 16) → Prop
  | _, [] => True
  | a, received :: rest =>
    (rawArqVerdict received a = .gap → P received a) ∧ EveryGap P (rawArqProcess received a).1 rest

section Gaps

variable {received : BitVec 16} {a : RawArq} {trace : List RawArqEvent}

/-- The queue after the packet of a gap. -/
theorem gapQueue_of_gap (hgap : rawArqVerdict received a = .gap) :
    (rawArqProcess received a).1.expectedSeq = received + 1 ∧
      (rawArqProcess received a).1.gapQueue = (a.gapQueue ++ rawArqAdded received a).filter
        fun q => decide ((received + 1 - q).toNat < rawArqStaleDistance) := by
  have hnot : ¬ rawArqVerdict received a = .first := by
    rw [hgap]
    decide
  have hprocess : (rawArqProcess received a).1 = rawArqEvict (rawArqTrack received a) := by
    simp only [rawArqProcess, if_neg hnot]
  rw [hprocess]
  constructor
  · simp only [rawArqEvict, rawArqTrack, hgap]
  · simp only [rawArqEvict, rawArqTrack, hgap]

theorem length_rawArqAdded : (rawArqAdded received a).length =
    min (received - a.expectedSeq).toNat (rawArqMaxGaps - a.gapQueue.length) := by
  rw [rawArqAdded, List.length_map, List.length_range]

theorem mem_added_iff {q : BitVec 16} : q ∈ rawArqAdded received a ↔
    (q - a.expectedSeq).toNat < min (received - a.expectedSeq).toNat (rawArqMaxGaps - a.gapQueue.length) := by
  rw [rawArqAdded, List.mem_map]
  constructor
  · rintro ⟨i, hi, rfl⟩
    rw [List.mem_range] at hi
    have hlt : i < 65536 := Nat.lt_trans (Nat.lt_min.mp hi).1 (received - a.expectedSeq).isLt
    have hsub : (a.expectedSeq + BitVec.ofNat 16 i - a.expectedSeq).toNat = i := by bv_omega
    rw [hsub]
    exact hi
  · intro hq
    refine ⟨_, List.mem_range.mpr hq, ?_⟩
    bv_omega

/-- A gap that fits is covered. -/
theorem GapFits.covered (h : RawArqInvariant trace a) (hgap : rawArqVerdict received a = .gap)
    (hfits : GapFits received a) : GapCovered received a := by
  obtain ⟨hexpected, hqueue⟩ := gapQueue_of_gap hgap
  obtain ⟨hlow, hhigh⟩ := distance_of_gap hgap
  have hlength := h.length_le
  have hroom : (received - a.expectedSeq).toNat ≤ 8 - a.gapQueue.length → GapCovered received a := by
    refine fun hroom => .inl fun q hq hrecent => ?_
    rw [hexpected] at hrecent
    rw [hqueue, List.mem_filter, List.mem_append, mem_added_iff]
    exact ⟨.inr (Nat.lt_min.mpr ⟨hq, Nat.lt_of_lt_of_le hq hroom⟩), decide_eq_true hrecent⟩
  rcases hfits with hfree | ⟨hold, holdest⟩
  · exact hroom hfree
  · by_cases hfree : (received - a.expectedSeq).toNat ≤ 8 - a.gapQueue.length
    · exact hroom hfree
    · -- the queue is filled up and nothing of it is evicted
      right
      have hkept : (rawArqProcess received a).1.gapQueue = a.gapQueue ++ rawArqAdded received a := by
        rw [hqueue, List.filter_eq_self]
        intro q hq
        rw [decide_eq_true_eq]
        rcases List.mem_append.mp hq with hq | hq
        · exact hold q hq
        · obtain ⟨hmissing, hplace⟩ := Nat.lt_min.mp (mem_added_iff.mp hq)
          have hshort := holdest (by unfold rawArqMaxGaps at hplace; omega)
          unfold rawArqStaleDistance
          bv_omega
      refine ⟨?_, fun q hq => ?_⟩
      · rw [hkept, List.length_append, length_rawArqAdded]
        unfold rawArqMaxGaps at *
        omega
      · rw [hqueue, List.mem_filter, decide_eq_true_eq] at hq
        rw [hexpected]
        exact hq.2

/-- A gap that is covered fits. -/
theorem GapCovered.fits (h : RawArqInvariant trace a) (hgap : rawArqVerdict received a = .gap)
    (hcovered : GapCovered received a) : GapFits received a := by
  obtain ⟨hexpected, hqueue⟩ := gapQueue_of_gap hgap
  obtain ⟨hlow, hhigh⟩ := distance_of_gap hgap
  have hlength := h.length_le
  unfold rawArqMaxGaps at hlength
  by_cases hfree : (received - a.expectedSeq).toNat ≤ 8 - a.gapQueue.length
  · exact .inl hfree
  · rcases hcovered with hall | ⟨hfull, -⟩
    · -- the newest number of the gap is never added here
      exfalso
      have hlast : MissingAt received a (received - 1) := by
        unfold MissingAt
        bv_omega
      have hmem := hall (received - 1) hlast (by rw [hexpected]; bv_omega)
      rw [hqueue, List.mem_filter, List.mem_append, mem_added_iff] at hmem
      rcases hmem.1 with hold | hadded
      · obtain ⟨hbehind, hrecent⟩ := h.behind _ hold
        unfold rawArqStaleDistance at hrecent
        bv_omega
      · have hplace := (Nat.lt_min.mp hadded).2
        unfold rawArqMaxGaps at hplace
        bv_omega
    · have hwhole : (a.gapQueue ++ rawArqAdded received a).length = 8 := by
        rw [List.length_append, length_rawArqAdded]
        unfold rawArqMaxGaps
        omega
      rw [hqueue, ← hwhole, List.length_filter_eq_length_iff] at hfull
      refine .inr ⟨fun q hq => ?_, fun hplace => ?_⟩
      · exact of_decide_eq_true (hfull q (List.mem_append_left _ hq))
      · have hfirst : a.expectedSeq ∈ rawArqAdded received a := by
          rw [mem_added_iff, BitVec.sub_self]
          exact Nat.lt_min.mpr ⟨hlow, Nat.sub_pos_of_lt hplace⟩
        have hrecent := of_decide_eq_true (hfull _ (List.mem_append_right _ hfirst))
        unfold rawArqStaleDistance at hrecent
        bv_omega

/-- What holds at every gap that is reached holds at every gap of a sequence of packets. -/
theorem everyGap_of_run {P : BitVec 16 → RawArq → Prop}
    (hgap : ∀ trace s received, rawArqSystem.Run trace s → rawArqVerdict received s = .gap → P received s)
    (h : rawArqSystem.Run trace a) (seqs : List (BitVec 16)) : EveryGap P a seqs := by
  induction seqs generalizing trace a with
  | nil => trivial
  | cons received seqs ih => exact ⟨hgap trace a received h, ih (.snoc (i := .packet received) h trivial rfl)⟩

theorem EveryGap.mp {P Q : BitVec 16 → RawArq → Prop} {seqs : List (BitVec 16)}
    (himp : EveryGap (fun received s => P received s → Q received s) a seqs) (h : EveryGap P a seqs) :
    EveryGap Q a seqs := by
  induction seqs generalizing a with
  | nil => trivial
  | cons received seqs ih => exact ⟨fun hgap => himp.1 hgap (h.1 hgap), ih himp.2 h.2⟩

end Gaps

/-- After any history, along every further sequence of packets, a gap is covered exactly when it fits; and where
every gap fits, every gap is covered. -/
theorem raw_arq_complete {trace : List RawArqEvent} {a : RawArq} (h : rawArqSystem.Run trace a)
    (seqs : List (BitVec 16)) :
    EveryGap (fun received s => GapCovered received s ↔ GapFits received s) a seqs ∧
      (EveryGap GapFits a seqs → EveryGap GapCovered a seqs) := by
  have hiff : EveryGap (fun received s => GapCovered received s ↔ GapFits received s) a seqs :=
    everyGap_of_run (fun trace s received hrun hgap =>
      ⟨GapCovered.fits (rawArq_invariant hrun) hgap, GapFits.covered (rawArq_invariant hrun) hgap⟩) h seqs
  refine ⟨hiff, fun hfits => EveryGap.mp ?_ hfits⟩
  exact EveryGap.mp (everyGap_of_run (fun _ _ _ _ _ hboth => hboth.mpr) h seqs) hiff

/-- A gap of three fits an empty queue. -/
theorem raw_arq_complete_short : EveryGap GapCovered .zero [0, 4, 5] := by
  refine (raw_arq_complete .start [0, 4, 5]).2 ⟨fun hgap => ?_, fun _ => .inl ?_, fun hgap => ?_, trivial⟩
  · exact absurd hgap (by decide)
  · decide
  · exact absurd hgap (by decide)

/-- Of a gap of 100 the eight oldest numbers are added and six of them evicted at once; of the others, 92 could
still be had. -/
theorem raw_arq_loses_gap : ¬ EveryGap GapCovered .zero [0, 101] := by
  intro h
  have hgap := h.2.1 (by decide)
  rcases hgap with hall | hfull
  · exact absurd (hall 100 (by unfold MissingAt; decide) (by decide)) (by decide)
  · exact absurd hfull.1 (by decide)

end SlimeReceiver
