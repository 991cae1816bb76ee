import Mathlib.Data.List.Perm.Basic
import Mathlib.Data.List.Nodup
import SlimeReceiver.Library.Bytes
import SlimeReceiver.Library.EventSystem

/-! # Raw data ARQ

`raw_arq_*`: the queue of missing sequence numbers the receiver asks its collection target for.
The queue holds the first `raw_arq_gap_count` entries of the array.

* **`swapDelete`** — the last entry takes the place of a deleted one.
* **`rawArqProcess`** — `raw_arq_process_isr`, with the request it attaches.
* **`rawArqSystem`** — packets and resets.
* **`raw_arq_sound`** — the queue is a set of sequence numbers that are missing. -/

namespace SlimeReceiver

/-! ## Deletion by swapping -/

section SwapDelete

variable {α : Type*} [DecidableEq α]

/-- The first `x` of a list is deleted and the last entry put in its place. -/
def swapDelete (x : α) (l : List α) : List α :=
  match l.findIdx? (· == x) with
  | none => l
  | some i => (l.set i (l.getLastD x)).dropLast

/-- The order of what is left is all that tells it from `erase`. -/
theorem swapDelete_perm (x : α) (l : List α) : (swapDelete x l).Perm (l.erase x) := by
  by_cases hx : x ∈ l
  · obtain ⟨before, after, hfresh, rfl, hrest⟩ := List.exists_erase_eq hx
    have hfind : (before ++ x :: after).findIdx? (· == x) = some before.length := by
      have hbefore : before.findIdx (· == x) = before.length := by
        refine List.findIdx_eq_length_of_false fun y hy => ?_
        rw [beq_eq_false_iff_ne]
        rintro rfl
        exact hfresh hy
      rw [List.findIdx?_eq_some_iff_findIdx_eq, List.findIdx_append, hbefore]
      simp [List.findIdx_cons]
    rw [swapDelete, hfind, hrest]
    rcases List.eq_nil_or_concat after with rfl | ⟨middle, z, rfl⟩
    · simp
    · rw [List.concat_eq_append]
      simp only [← List.cons_append, ← List.append_assoc, List.getLastD_concat]
      rw [List.set_append_left _ _ (by simp), List.set_append_right _ _ (Nat.le_refl _), Nat.sub_self,
        List.set_cons_zero, List.dropLast_concat, List.append_assoc]
      exact List.Perm.append_left before (List.perm_append_singleton z middle).symm
  · have hfind : l.findIdx? (· == x) = none := by
      rw [List.findIdx?_eq_none_iff]
      intro y hy
      rw [beq_eq_false_iff_ne]
      rintro rfl
      exact hx hy
    rw [swapDelete, hfind, List.erase_of_not_mem hx]

end SwapDelete

/-! ## The code -/

/-- `RAW_ARQ_MAX_GAPS`. -/
def rawArqMaxGaps : ℕ := 8
/-- `RAW_ARQ_STALE_DISTANCE`. -/
def rawArqStaleDistance : ℕ := 96
/-- `RAW_ARQ_MARKER`. -/
def rawArqMarker : BitVec 8 := 0xAA

/-- The static variables `raw_arq_*`. -/
structure RawArq where
  expectedSeq : BitVec 16
  seqInitialized : Bool
  gapQueue : List (BitVec 16)
  gapsDetected : BitVec 32
  retransmitsReceived : BitVec 32

def RawArq.zero : RawArq where
  expectedSeq := 0
  seqInitialized := false
  gapQueue := []
  gapsDetected := 0
  retransmitsReceived := 0

/-- `raw_arq_reset`. -/
def rawArqReset (a : RawArq) : RawArq := { a with
  seqInitialized := false
  gapQueue := []
  gapsDetected := 0
  retransmitsReceived := 0 }

/-- How `raw_arq_process_isr` reads a sequence number. -/
inductive RawArqVerdict
  | first
  | inOrder
  | gap
  | retransmit
  | jump
  deriving DecidableEq, Repr

/-- The branches of `raw_arq_process_isr`. -/
def rawArqVerdict (received : BitVec 16) (a : RawArq) : RawArqVerdict :=
  let diff := (received - a.expectedSeq).toInt
  if !a.seqInitialized then .first
  else if diff = 0 then .inOrder
  else if 0 < diff ∧ diff ≤ 100 then .gap
  else if diff < 0 ∧ -100 < diff then .retransmit
  else .jump

/-- The sequence numbers a forward gap adds to the queue, as far as there is room. -/
def rawArqAdded (received : BitVec 16) (a : RawArq) : List (BitVec 16) :=
  (List.range (min (received - a.expectedSeq).toNat (rawArqMaxGaps - a.gapQueue.length))).map
    fun i => a.expectedSeq + BitVec.ofNat 16 i

/-- The branches of `raw_arq_process_isr` before the eviction. -/
def rawArqTrack (received : BitVec 16) (a : RawArq) : RawArq :=
  match rawArqVerdict received a with
  | .first => { a with
      expectedSeq := received + 1
      seqInitialized := true }
  | .inOrder => { a with expectedSeq := received + 1 }
  | .gap => { a with
      gapQueue := a.gapQueue ++ rawArqAdded received a
      gapsDetected := a.gapsDetected + (received - a.expectedSeq).setWidth 32
      expectedSeq := received + 1 }
  | .retransmit => if received ∈ a.gapQueue then { a with
      gapQueue := swapDelete received a.gapQueue
      retransmitsReceived := a.retransmitsReceived + 1 } else a
  | .jump => { a with
      expectedSeq := received + 1
      gapQueue := [] }

/-- Entries too far behind are evicted. -/
def rawArqEvict (a : RawArq) : RawArq := { a with
  gapQueue := a.gapQueue.filter fun q => decide ((a.expectedSeq - q).toNat < rawArqStaleDistance) }

/-- The bytes of a retransmit request. -/
def rawArqRequest (queue : List (BitVec 16)) : List (BitVec 8) :=
  [rawArqMarker, BitVec.ofNat 8 queue.length] ++ queue.flatMap be16Bytes

/-- `raw_arq_process_isr`, with the payload it attaches. The first packet returns before the eviction. -/
def rawArqProcess (received : BitVec 16) (a : RawArq) : RawArq × Option (List (BitVec 8)) :=
  let tracked := rawArqTrack received a
  if rawArqVerdict received a = .first then (tracked, none)
  else
    let evicted := rawArqEvict tracked
    (evicted, if evicted.gapQueue = [] then none else some (rawArqRequest evicted.gapQueue))

/-! ## Packets and resets -/

/-- What happens to the collection. -/
inductive RawArqOp
  | packet (received : BitVec 16)
  | reset

/-- The visible events. -/
inductive RawArqEvent
  | received (seq : BitVec 16)
  /-- The numbers from `expected` up to `received` were skipped. -/
  | gap (expected received : BitVec 16)
  /-- A large jump. -/
  | jumped
  | reset
  deriving DecidableEq, Repr

/-- What a packet reports. -/
def rawArqEvents (received : BitVec 16) (a : RawArq) : List RawArqEvent :=
  match rawArqVerdict received a with
  | .gap => [.received received, .gap a.expectedSeq received]
  | .jump => [.received received, .jumped]
  | _ => [.received received]

/-- The collection as a system. -/
def rawArqSystem : EventSystem RawArq RawArqOp RawArqEvent where
  init := .zero
  step a
    | .packet received => some ((rawArqProcess received a).1, rawArqEvents received a)
    | .reset => some (rawArqReset a, [.reset])

/-! ## What the queue is -/

/-- A forward gap skipped `q`, and since then `q` was not received and the collection not reset. -/
def MissingSince (trace : List RawArqEvent) (q : BitVec 16) : Prop :=
  ∃ earlier expected received later, trace = earlier ++ RawArqEvent.gap expected received :: later ∧
    (q - expected).toNat < (received - expected).toNat ∧
    ∀ e ∈ later, e ≠ .received q ∧ e ≠ .jumped ∧ e ≠ .reset

/-- The numbers a retransmit request asks for. -/
def requestedSeqs : List (BitVec 8) → List (BitVec 16)
  | _marker :: _count :: numbers => pairs numbers
  | _ => []
where
  pairs : List (BitVec 8) → List (BitVec 16)
    | high :: low :: rest => be16 high low :: pairs rest
    | _ => []

/-- What holds of the queue after every step. -/
structure RawArqInvariant (trace : List RawArqEvent) (a : RawArq) : Prop where
  length_le : a.gapQueue.length ≤ rawArqMaxGaps
  nodup : a.gapQueue.Nodup
  behind : ∀ q ∈ a.gapQueue, 1 ≤ (a.expectedSeq - q).toNat ∧ (a.expectedSeq - q).toNat < rawArqStaleDistance
  missing : ∀ q ∈ a.gapQueue, MissingSince trace q
  idle : a.seqInitialized = false → a.gapQueue = []

section Verdicts

variable {received : BitVec 16} {a : RawArq}

theorem distance_of_inOrder (h : rawArqVerdict received a = .inOrder) : received = a.expectedSeq := by
  simp only [rawArqVerdict] at h
  split_ifs at h with _ hdiff
  have hzero : received - a.expectedSeq = 0 := by
    apply BitVec.eq_of_toInt_eq
    simpa using hdiff
  exact BitVec.sub_eq_iff_eq_add.mp hzero |>.trans (BitVec.zero_add _)

theorem distance_of_gap (h : rawArqVerdict received a = .gap) :
    1 ≤ (received - a.expectedSeq).toNat ∧ (received - a.expectedSeq).toNat ≤ 100 := by
  simp only [rawArqVerdict] at h
  split_ifs at h with _ _ hdiff
  rw [BitVec.toInt_eq_toNat_cond] at hdiff
  have hlt := (received - a.expectedSeq).isLt
  split at hdiff <;> omega

theorem distance_of_retransmit (h : rawArqVerdict received a = .retransmit) :
    65536 - 100 < (received - a.expectedSeq).toNat := by
  simp only [rawArqVerdict] at h
  split_ifs at h with _ _ _ hdiff
  rw [BitVec.toInt_eq_toNat_cond] at hdiff
  have hlt := (received - a.expectedSeq).isLt
  split at hdiff <;> omega

theorem started_of_verdict (h : rawArqVerdict received a = .first) : a.seqInitialized = false := by
  simp only [rawArqVerdict] at h
  split_ifs at h with hinit
  simpa using hinit

end Verdicts

section Tracking

variable {received : BitVec 16} {a : RawArq} {trace : List RawArqEvent} {q : BitVec 16}

/-- A number stays missing while others are received. -/
theorem MissingSince.receive (received : BitVec 16) (h : MissingSince trace q) (hne : q ≠ received) {es : List RawArqEvent}
    (hes : ∀ e ∈ es, e ≠ .jumped ∧ e ≠ .reset ∧ ∀ seq, e = .received seq → seq = received) :
    MissingSince (trace ++ es) q := by
  obtain ⟨earlier, expected, seq, later, rfl, hskipped, hlater⟩ := h
  refine ⟨earlier, expected, seq, later ++ es, by rw [List.append_assoc, List.cons_append], hskipped, ?_⟩
  intro e he
  rcases List.mem_append.mp he with hold | hnew
  · exact hlater e hold
  · obtain ⟨hjump, hreset, hseq⟩ := hes e hnew
    exact ⟨fun hreceived => hne (hseq q hreceived), hjump, hreset⟩

theorem mem_rawArqAdded : q ∈ rawArqAdded received a → ∃ i < (received - a.expectedSeq).toNat,
    q = a.expectedSeq + BitVec.ofNat 16 i := by
  intro hq
  obtain ⟨i, hi, rfl⟩ := List.mem_map.mp hq
  rw [List.mem_range, Nat.lt_min] at hi
  exact ⟨i, hi.1, rfl⟩

theorem rawArqAdded_nodup : (rawArqAdded received a).Nodup := by
  refine List.Nodup.map_on ?_ List.nodup_range
  intro i hi j hj heq
  rw [List.mem_range, Nat.lt_min] at hi hj
  have hlt := (received - a.expectedSeq).isLt
  obtain ⟨hi, -⟩ := hi
  obtain ⟨hj, -⟩ := hj
  bv_omega

/-- What a packet does to the queue before the eviction. -/
theorem RawArqInvariant.track (received : BitVec 16) (h : RawArqInvariant trace a) :
    (rawArqTrack received a).gapQueue.length ≤ rawArqMaxGaps ∧ (rawArqTrack received a).gapQueue.Nodup ∧
      ∀ q ∈ (rawArqTrack received a).gapQueue, 1 ≤ ((rawArqTrack received a).expectedSeq - q).toNat ∧
        MissingSince (trace ++ rawArqEvents received a) q := by
  cases hverdict : rawArqVerdict received a with
  | first =>
    have hqueue : (rawArqTrack received a).gapQueue = [] := by
      simpa only [rawArqTrack, hverdict] using h.idle (started_of_verdict hverdict)
    rw [hqueue]
    exact ⟨Nat.zero_le _, List.nodup_nil, by simp⟩
  | inOrder =>
    have horder := distance_of_inOrder hverdict
    simp only [rawArqTrack, rawArqEvents, hverdict]
    refine ⟨h.length_le, h.nodup, fun q hq => ?_⟩
    obtain ⟨hlow, hhigh⟩ := h.behind q hq
    unfold rawArqStaleDistance at hhigh
    constructor
    · bv_omega
    · refine (h.missing q hq).receive received ?_ (by simp)
      rintro rfl
      bv_omega
  | gap =>
    obtain ⟨hlow, hhigh⟩ := distance_of_gap hverdict
    simp only [rawArqTrack, rawArqEvents, hverdict]
    refine ⟨?_, ?_, fun q hq => ?_⟩
    · rw [List.length_append, rawArqAdded, List.length_map, List.length_range]
      have hlength := h.length_le
      omega
    · refine h.nodup.append rawArqAdded_nodup fun q hq hadded => ?_
      -- the queue is behind what is expected, what is added is not
      obtain ⟨hlow', hhigh'⟩ := h.behind q hq
      obtain ⟨i, hi, rfl⟩ := mem_rawArqAdded hadded
      unfold rawArqStaleDistance at hhigh'
      bv_omega
    · rcases List.mem_append.mp hq with hold | hadded
      · obtain ⟨hlow', hhigh'⟩ := h.behind q hold
        unfold rawArqStaleDistance at hhigh'
        constructor
        · bv_omega
        · refine (h.missing q hold).receive received ?_ (by simp)
          rintro rfl
          bv_omega
      · obtain ⟨i, hi, rfl⟩ := mem_rawArqAdded hadded
        constructor
        · bv_omega
        · refine ⟨trace ++ [RawArqEvent.received received], a.expectedSeq, received, [], by simp, ?_, by simp⟩
          bv_omega
  | retransmit =>
    have hbehind := distance_of_retransmit hverdict
    simp only [rawArqTrack, rawArqEvents, hverdict]
    split
    case isTrue hmem =>
      have hperm := swapDelete_perm received a.gapQueue
      refine ⟨?_, hperm.nodup_iff.mpr (h.nodup.erase _), fun q hq => ?_⟩
      · rw [hperm.length_eq]
        exact Nat.le_trans List.length_erase_le h.length_le
      · obtain ⟨hne, hold⟩ := h.nodup.mem_erase_iff.mp (hperm.mem_iff.mp hq)
        exact ⟨(h.behind q hold).1, (h.missing q hold).receive _ hne (by simp)⟩
    case isFalse hnot =>
      refine ⟨h.length_le, h.nodup, fun q hq => ⟨(h.behind q hq).1, ?_⟩⟩
      exact (h.missing q hq).receive received (fun heq => hnot (heq ▸ hq)) (by simp)
  | jump =>
    simp only [rawArqTrack, rawArqEvents, hverdict]
    exact ⟨Nat.zero_le _, List.nodup_nil, by simp⟩

/-- A packet keeps the queue a set of missing numbers. -/
theorem RawArqInvariant.process (received : BitVec 16) (h : RawArqInvariant trace a) :
    RawArqInvariant (trace ++ rawArqEvents received a) (rawArqProcess received a).1 := by
  obtain ⟨hlength, hnodup, hqueue⟩ := h.track received
  have hstarted : (rawArqTrack received a).seqInitialized = true := by
    unfold rawArqTrack
    cases hverdict : rawArqVerdict received a <;> try rfl
    all_goals
      have hinit : a.seqInitialized = true := by
        by_contra hnot
        rw [rawArqVerdict, if_pos (by simpa using hnot)] at hverdict
        cases hverdict
      dsimp only
      try split
      all_goals exact hinit
  unfold rawArqProcess
  dsimp only
  split
  case isTrue hfirst =>
    have hempty : (rawArqTrack received a).gapQueue = [] := by
      simpa only [rawArqTrack, hfirst] using h.idle (started_of_verdict hfirst)
    refine ⟨hlength, hnodup, ?_, fun q hq => (hqueue q hq).2, fun _ => hempty⟩
    simp [hempty]
  case isFalse =>
    have hkept : ∀ q ∈ (rawArqEvict (rawArqTrack received a)).gapQueue,
        q ∈ (rawArqTrack received a).gapQueue ∧
          ((rawArqTrack received a).expectedSeq - q).toNat < rawArqStaleDistance := by
      intro q hq
      simpa [rawArqEvict] using hq
    exact ⟨Nat.le_trans (List.length_filter_le _ _) hlength, hnodup.filter _,
      fun q hq => ⟨(hqueue q (hkept q hq).1).1, (hkept q hq).2⟩, fun q hq => (hqueue q (hkept q hq).1).2,
      fun hnot => absurd (hstarted.symm.trans hnot) (by decide)⟩

theorem rawArq_invariant (h : rawArqSystem.Run trace a) : RawArqInvariant trace a := by
  induction h with
  | start => exact ⟨Nat.zero_le _, List.nodup_nil, by simp [rawArqSystem, RawArq.zero],
      by simp [rawArqSystem, RawArq.zero], fun _ => rfl⟩
  | @snoc trace a op a' es _ _ htaken ih =>
    cases op with
    | packet received =>
      obtain ⟨rfl, rfl⟩ := Prod.mk.inj (Option.some.inj htaken)
      exact ih.process received
    | reset =>
      obtain ⟨rfl, rfl⟩ := Prod.mk.inj (Option.some.inj htaken)
      exact ⟨Nat.zero_le _, List.nodup_nil, by simp [rawArqReset], by simp [rawArqReset], fun _ => rfl⟩

end Tracking

/-! ## Requests -/

theorem pairs_flatMap (queue : List (BitVec 16)) :
    requestedSeqs.pairs (queue.flatMap be16Bytes) = queue := by
  induction queue with
  | nil => rfl
  | cons q queue ih =>
    rw [List.flatMap_cons]
    show be16 ((q >>> 8).setWidth 8) (q.setWidth 8) :: requestedSeqs.pairs (queue.flatMap be16Bytes) = _
    rw [ih]
    refine congrArg (· :: queue) ?_
    apply BitVec.eq_of_getLsbD_eq
    intro i hi
    rw [be16, BitVec.getLsbD_append]
    split <;> simp <;> grind

/-- A request lists the queue. -/
theorem requestedSeqs_rawArqRequest (queue : List (BitVec 16)) :
    requestedSeqs (rawArqRequest queue) = queue := pairs_flatMap queue

/-- After every packet the queue holds at most eight numbers, all different, each between 1 and 95 behind what
is expected and missing since a forward gap, and the acknowledgement asks for exactly these. -/
theorem raw_arq_sound {trace : List RawArqEvent} {a : RawArq} (h : rawArqSystem.Run trace a) :
    (a.gapQueue.length ≤ 8 ∧ a.gapQueue.Nodup ∧ (∀ q ∈ a.gapQueue, MissingSince trace q) ∧
      ∀ q ∈ a.gapQueue, 1 ≤ (a.expectedSeq - q).toNat ∧ (a.expectedSeq - q).toNat ≤ 95) ∧
    ∀ received, ((rawArqProcess received a).2.isSome = true ↔ (rawArqProcess received a).1.gapQueue ≠ []) ∧
      ∀ reply, (rawArqProcess received a).2 = some reply →
        reply.head? = some rawArqMarker ∧ reply.length = 2 + 2 * (rawArqProcess received a).1.gapQueue.length ∧
          (reply.getD 1 0).toNat = (rawArqProcess received a).1.gapQueue.length ∧
          requestedSeqs reply = (rawArqProcess received a).1.gapQueue := by
  have hinv := rawArq_invariant h
  refine ⟨⟨hinv.length_le, hinv.nodup, hinv.missing, fun q hq => ?_⟩, fun received => ?_⟩
  · obtain ⟨hlow, hhigh⟩ := hinv.behind q hq
    exact ⟨hlow, Nat.le_of_lt_succ hhigh⟩
  · have hnext := (hinv.process received).length_le
    by_cases hfirst : rawArqVerdict received a = .first
    · have hempty : (rawArqProcess received a).1.gapQueue = [] := by
        simpa only [rawArqProcess, rawArqTrack, hfirst, if_true] using hinv.idle (started_of_verdict hfirst)
      have hreply : (rawArqProcess received a).2 = none := by
        simp only [rawArqProcess, hfirst, if_true]
      rw [hempty, hreply]
      exact ⟨by simp, fun reply hsome => by cases hsome⟩
    · have hreply : (rawArqProcess received a).2 = if (rawArqProcess received a).1.gapQueue = [] then none
          else some (rawArqRequest (rawArqProcess received a).1.gapQueue) := by
        simp only [rawArqProcess, if_neg hfirst]
      rw [hreply]
      generalize (rawArqProcess received a).1.gapQueue = queue at hnext
      refine ⟨by split <;> simp_all, fun reply hsome => ?_⟩
      split at hsome
      case isTrue => cases hsome
      case isFalse =>
        obtain rfl := Option.some.inj hsome
        refine ⟨rfl, ?_, ?_, requestedSeqs_rawArqRequest queue⟩
        · rw [rawArqRequest, List.length_append, List.length_flatMap]
          simp [be16Bytes, Nat.mul_comm]
        · show (BitVec.ofNat 8 queue.length).toNat = queue.length
          rw [BitVec.toNat_ofNat, Nat.mod_eq_of_lt]
          unfold rawArqMaxGaps at hnext
          omega

/-- Three packets that skip two numbers, one of which comes later. -/
theorem raw_arq_sound_gap : ∃ trace a, rawArqSystem.Run trace a ∧ a.gapQueue = [2] ∧
    (∀ q ∈ a.gapQueue, MissingSince trace q) ∧
      ∀ received reply, (rawArqProcess received a).2 = some reply →
        requestedSeqs reply = (rawArqProcess received a).1.gapQueue := by
  obtain ⟨trace, a, hrun, htest⟩ := rawArqSystem.exists_run_of_replay
    [.packet 0, .packet 3, .packet 1] (fun _ a => decide (a.gapQueue = [2])) (by decide +kernel)
  obtain ⟨⟨-, -, hmissing, -⟩, hreply⟩ := raw_arq_sound hrun
  exact ⟨trace, a, hrun, of_decide_eq_true htest, hmissing,
    fun received reply hsome => ((hreply received).2 reply hsome).2.2.2⟩

end SlimeReceiver
