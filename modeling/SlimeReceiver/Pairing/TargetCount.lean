import SlimeReceiver.Pairing.Session

/-! # The target of a pairing session

`esb_thread` finds the target of a session reached from a difference of two counts in eight bits, and
`esb_pop_pair` makes the first of them smaller than the second.

* **`CountLaw`** — a target that is found reached was reached by devices added since the session started.
* **`CountClean`** — no check sees fewer trackers than at the start so that the difference meets the target.
* **`target_counts_additions`** — in runs of such steps the law holds, and a target is found reached in time. -/

namespace SlimeReceiver

namespace Pairing

/-! ## The law -/

/-- One event of the target of the session started last. -/
def noteTarget (target : BitVec 8) : PairingEvent → BitVec 8
  | .started next => next
  | .added | .reached _ | .exited _ => target

/-- The target of the session started last. -/
def sessionTarget (trace : List PairingEvent) : BitVec 8 := trace.foldl noteTarget 0

/-- A target is found reached only after that many devices were added in its session. -/
def CountLaw (trace : List PairingEvent) : PairingEvent → Prop
  | .reached _ => 0 < sessionTarget trace ∧ (sessionTarget trace).toNat ≤ addedSinceStart trace
  | _ => True

/-- The steps that keep the counts comparable: no session starts while a target of an earlier one is still noted, no
roster with trackers is restored under a target, and at no check `k > 0` trackers are missing from those at the
start of a session whose target is at most `256 - k`. -/
def CountClean (s : PairingState) : PairingOp → Prop
  | .boot | .startPairing | .startPairingWithCount _ => s.pairingTargetReachedTime = 0
  | .restore count => s.storeReady = true ∨ s.pairingTargetCount = 0 ∨ count = 0
  | .targetCheck => s.storedTrackers < s.pairingInitialCount.toNat → 0 < s.pairingTargetCount →
      256 < s.pairingInitialCount.toNat - s.storedTrackers + s.pairingTargetCount.toNat
  | _ => True

instance (s : PairingState) : (op : PairingOp) → Decidable (CountClean s op)
  | .boot | .startPairing | .startPairingWithCount _ => inferInstanceAs (Decidable (s.pairingTargetReachedTime = 0))
  | .restore count => inferInstanceAs (Decidable (s.storeReady = true ∨ s.pairingTargetCount = 0 ∨ count = 0))
  | .targetCheck => inferInstanceAs (Decidable (s.storedTrackers < s.pairingInitialCount.toNat →
      0 < s.pairingTargetCount → 256 < s.pairingInitialCount.toNat - s.storedTrackers + s.pairingTargetCount.toNat))
  | .advance _ | .finishPair | .addPair | .popPair | .clear | .enterLoop | .timeoutCheck =>
    inferInstanceAs (Decidable True)

/-- What holds after every such step. -/
structure CountInvariant (trace : List PairingEvent) (s : PairingState) : Prop where
  stored_le : s.storedTrackers ≤ maxTrackers
  target : 0 < s.pairingTargetCount → sessionTarget trace = s.pairingTargetCount
  grown : 0 < s.pairingTargetCount → s.storedTrackers ≤ s.pairingInitialCount.toNat + addedSinceStart trace
  reached : s.pairingTargetReachedTime ≠ 0 → ReachedAt trace s.pairingTargetReachedTime
  law : EachAfter CountLaw trace

section Steps

variable {timeoutSeconds : ℕ} {s s' : PairingState} {trace es : List PairingEvent} {op : PairingOp}

theorem not_zero_lt_zero : ¬ (0 : BitVec 8) < 0 := by decide

theorem sessionTarget_concat (trace : List PairingEvent) (e : PairingEvent) :
    sessionTarget (trace ++ [e]) = noteTarget (sessionTarget trace) e := by
  rw [sessionTarget, List.foldl_append]
  rfl

/-- What leaves the counts and the target alone keeps the invariant. -/
theorem CountInvariant.frame (h : CountInvariant trace s)
    (hsame : s'.storedTrackers = s.storedTrackers ∧ s'.pairingTargetCount = s.pairingTargetCount ∧
      s'.pairingInitialCount = s.pairingInitialCount ∧ s'.pairingTargetReachedTime = s.pairingTargetReachedTime) :
    CountInvariant trace s' := by
  obtain ⟨hstored, htarget, hinitial, htime⟩ := hsame
  constructor
  · rw [hstored]
    exact h.stored_le
  · rw [htarget]
    exact h.target
  · rw [htarget, hstored, hinitial]
    exact h.grown
  · rw [htime]
    exact h.reached
  · exact h.law

/-- Ending a session forgets its target. -/
theorem CountInvariant.finish (h : CountInvariant trace s) : CountInvariant trace s.finish :=
  ⟨h.stored_le, fun hpositive => absurd hpositive not_zero_lt_zero, fun hpositive => absurd hpositive not_zero_lt_zero,
    fun hne => absurd rfl hne, h.law⟩

/-- A session starts with its own target and count. -/
theorem CountInvariant.start (h : CountInvariant trace s) (hclean : s.pairingTargetReachedTime = 0)
    (target : BitVec 8) : CountInvariant (trace ++ [PairingEvent.started target]) (s.start target) := by
  have hinitial : (BitVec.ofNat 8 s.storedTrackers).toNat = s.storedTrackers := by
    rw [BitVec.toNat_ofNat, Nat.mod_eq_of_lt]
    exact lt_of_le_of_lt h.stored_le (by decide)
  refine ⟨h.stored_le, fun _ => sessionTarget_concat _ _, fun _ => ?_, fun hne => absurd hclean hne,
    h.law.append fun _ e he => ?_⟩
  · show s.storedTrackers ≤ (BitVec.ofNat 8 s.storedTrackers).toNat + _
    rw [hinitial]
    exact Nat.le_add_right _ _
  · rw [List.mem_singleton] at he
    subst he
    exact trivial

/-- At a clean check a target that is met was reached by devices that were added. -/
theorem CountInvariant.met (h : CountInvariant trace s) (hmet : s.targetMet = true)
    (hclean : CountClean s .targetCheck) :
    0 < sessionTarget trace ∧ (sessionTarget trace).toNat ≤ addedSinceStart trace := by
  simp only [PairingState.targetMet, Bool.and_eq_true, decide_eq_true_eq] at hmet
  obtain ⟨hpositive, hle⟩ := hmet
  have hgrown := h.grown hpositive
  have hstored := h.stored_le
  have hclean' : s.storedTrackers < s.pairingInitialCount.toNat → 0 < s.pairingTargetCount →
      256 < s.pairingInitialCount.toNat - s.storedTrackers + s.pairingTargetCount.toNat := hclean
  rw [h.target hpositive]
  refine ⟨hpositive, ?_⟩
  have hle' : s.pairingTargetCount.toNat ≤ s.newDevices.toNat := hle
  unfold PairingState.newDevices maxTrackers at *
  by_cases hfewer : s.storedTrackers < s.pairingInitialCount.toNat
  · -- the difference wraps, but stays below the target
    have hwide := hclean' hfewer hpositive
    bv_omega
  · bv_omega

/-- A target that is met is noted now, or was noted in this session before. -/
theorem CountInvariant.note (h : CountInvariant trace s) (hmet : s.targetMet = true)
    (hclean : CountClean s .targetCheck) :
    CountInvariant (trace ++ if s.pairingTargetReachedTime = 0 then [.reached s.uptime] else []) s.noteTarget := by
  unfold PairingState.noteTarget
  split
  case isTrue =>
    have hadded : addedSinceStart (trace ++ [PairingEvent.reached s.uptime]) = addedSinceStart trace :=
      addedSinceStart_concat _ _
    refine ⟨h.stored_le, fun hpositive => ?_, fun hpositive => ?_, fun _ => ⟨trace, [], rfl, by simp⟩,
      eachAfter_snoc.mpr ⟨h.law, h.met hmet hclean⟩⟩
    · exact (sessionTarget_concat _ _).trans (h.target hpositive)
    · rw [hadded]
      exact h.grown hpositive
  case isFalse =>
    rw [List.append_nil]
    exact h

/-- The check of the target keeps the invariant. -/
theorem CountInvariant.checkTarget (h : CountInvariant trace s) (hclean : CountClean s .targetCheck) :
    CountInvariant (trace ++ s.checkTarget.2) s.checkTarget.1 := by
  unfold PairingState.checkTarget
  split
  case isTrue hmet =>
    have hnoted := h.note hmet hclean
    dsimp only
    split
    case isTrue =>
      have hfinished := hnoted.finish
      rw [← List.append_assoc]
      refine ⟨hfinished.stored_le, fun hpositive => absurd hpositive not_zero_lt_zero,
        fun hpositive => absurd hpositive not_zero_lt_zero, fun hne => absurd rfl hne,
        eachAfter_snoc.mpr ⟨hfinished.law, trivial⟩⟩
    case isFalse => exact hnoted
  case isFalse =>
    rw [List.append_nil]
    exact h

/-- Every clean step keeps the invariant. -/
theorem CountInvariant.step (h : CountInvariant trace s) (hclean : CountClean s op)
    (hstep : pairingStep timeoutSeconds s op = some (s', es)) : CountInvariant (trace ++ es) s' := by
  cases op with
  | advance ms =>
    obtain ⟨rfl, rfl⟩ := Prod.mk.inj (Option.some.inj hstep)
    rw [List.append_nil]
    exact h.frame ⟨rfl, rfl, rfl, rfl⟩
  | restore count =>
    simp only [pairingStep] at hstep
    split at hstep
    case isTrue =>
      obtain ⟨rfl, rfl⟩ := Prod.mk.inj (Option.some.inj hstep)
      rw [List.append_nil]
      exact h
    case isFalse hnot =>
      split at hstep
      case isTrue hcount =>
        obtain ⟨rfl, rfl⟩ := Prod.mk.inj (Option.some.inj hstep)
        rw [List.append_nil]
        refine ⟨hcount, h.target, fun hpositive => ?_, h.reached, h.law⟩
        rcases hclean with hready | hnone | rfl
        · exact absurd hready hnot
        · exact absurd hpositive (by rw [hnone]; decide)
        · exact Nat.zero_le _
      case isFalse => cases hstep
  | boot =>
    simp only [pairingStep] at hstep
    split at hstep
    case isTrue => cases hstep
    case isFalse =>
      split at hstep
      case isTrue hempty =>
        obtain ⟨rfl, rfl⟩ := Prod.mk.inj (Option.some.inj hstep)
        refine (h.start hclean 0).frame ⟨rfl, rfl, ?_, rfl⟩
        show (0 : BitVec 8) = BitVec.ofNat 8 s.storedTrackers
        rw [hempty.2]
        rfl
      case isFalse =>
        obtain ⟨rfl, rfl⟩ := Prod.mk.inj (Option.some.inj hstep)
        rw [List.append_nil]
        exact h.frame ⟨rfl, rfl, rfl, rfl⟩
  | startPairing =>
    obtain ⟨rfl, rfl⟩ := Prod.mk.inj (Option.some.inj hstep)
    exact h.start hclean 0
  | startPairingWithCount target =>
    obtain ⟨rfl, rfl⟩ := Prod.mk.inj (Option.some.inj hstep)
    exact h.start hclean target
  | finishPair =>
    obtain ⟨rfl, rfl⟩ := Prod.mk.inj (Option.some.inj hstep)
    rw [List.append_nil]
    exact h.finish
  | addPair =>
    simp only [pairingStep] at hstep
    split at hstep
    case isTrue hroom =>
      obtain ⟨rfl, rfl⟩ := Prod.mk.inj (Option.some.inj hstep)
      have hadded : addedSinceStart (trace ++ [PairingEvent.added]) = addedSinceStart trace + 1 :=
        addedSinceStart_concat _ _
      refine ⟨hroom.2, fun hpositive => (sessionTarget_concat _ _).trans (h.target hpositive),
        fun hpositive => ?_, fun hne => (h.reached hne).append (by simp), eachAfter_snoc.mpr ⟨h.law, trivial⟩⟩
      rw [hadded, ← Nat.add_assoc]
      exact Nat.succ_le_succ (h.grown hpositive)
    case isFalse => cases hstep
  | popPair =>
    simp only [pairingStep] at hstep
    split at hstep
    case isTrue =>
      obtain ⟨rfl, rfl⟩ := Prod.mk.inj (Option.some.inj hstep)
      rw [List.append_nil]
      exact ⟨(Nat.sub_le _ _).trans h.stored_le, h.target,
        fun hpositive => (Nat.sub_le _ _).trans (h.grown hpositive), h.reached, h.law⟩
    case isFalse => cases hstep
  | clear =>
    obtain ⟨rfl, rfl⟩ := Prod.mk.inj (Option.some.inj hstep)
    rw [List.append_nil]
    exact ⟨Nat.zero_le _, h.target, fun _ => Nat.zero_le _, h.reached, h.law⟩
  | enterLoop =>
    simp only [pairingStep] at hstep
    split at hstep
    case isTrue =>
      obtain ⟨rfl, rfl⟩ := Prod.mk.inj (Option.some.inj hstep)
      rw [List.append_nil]
      exact h.frame ⟨rfl, rfl, rfl, rfl⟩
    case isFalse => cases hstep
  | timeoutCheck =>
    simp only [pairingStep] at hstep
    split at hstep
    case isTrue =>
      obtain ⟨rfl, rfl⟩ := Prod.mk.inj (Option.some.inj hstep)
      rw [List.append_nil]
      unfold PairingState.checkTimeout
      split
      · exact h.finish
      · exact h
    case isFalse => cases hstep
  | targetCheck =>
    simp only [pairingStep] at hstep
    split at hstep
    case isTrue =>
      obtain ⟨rfl, rfl⟩ := Prod.mk.inj (Option.some.inj hstep)
      exact (h.checkTarget hclean).frame ⟨rfl, rfl, rfl, rfl⟩
    case isFalse => cases hstep

/-- A check with enough devices has the target reached. -/
theorem CountInvariant.reaches (h : CountInvariant trace s)
    (hstep : pairingStep timeoutSeconds s .targetCheck = some (s', es)) (hpositive : 0 < s.pairingTargetCount)
    (henough : s.pairingInitialCount.toNat + s.pairingTargetCount.toNat ≤ s.storedTrackers) :
    ∃ time, ReachedAt (trace ++ es) time := by
  have hmet : s.targetMet = true := by
    have hstored := h.stored_le
    have hle : s.pairingTargetCount.toNat ≤ s.newDevices.toNat := by
      unfold PairingState.newDevices maxTrackers at *
      bv_omega
    rw [PairingState.targetMet, decide_eq_true hpositive, Bool.true_and, decide_eq_true_eq]
    exact hle
  have hnoted : ∃ time, ReachedAt
      (trace ++ if s.pairingTargetReachedTime = 0 then [.reached s.uptime] else []) time := by
    split
    case isTrue => exact ⟨s.uptime, trace, [], rfl, by simp⟩
    case isFalse hne =>
      rw [List.append_nil]
      exact ⟨_, h.reached hne⟩
  simp only [pairingStep] at hstep
  split at hstep
  case isFalse => cases hstep
  case isTrue =>
    obtain ⟨-, rfl⟩ := Prod.mk.inj (Option.some.inj hstep)
    obtain ⟨time, hreached⟩ := hnoted
    rw [PairingState.checkTarget, if_pos hmet]
    dsimp only
    split
    case isTrue =>
      rw [← List.append_assoc]
      exact ⟨time, hreached.append (by simp)⟩
    case isFalse => exact ⟨time, hreached⟩

end Steps

theorem count_invariant {timeoutSeconds : ℕ} {trace : List PairingEvent} {s : PairingState}
    (h : (pairingSystem timeoutSeconds).RunWhere CountClean trace s) : CountInvariant trace s := by
  induction h with
  | start => exact ⟨Nat.zero_le _, fun hpositive => absurd hpositive not_zero_lt_zero,
      fun hpositive => absurd hpositive not_zero_lt_zero, fun hne => absurd rfl hne, eachAfter_nil⟩
  | snoc _ hclean htaken ih => exact ih.step hclean htaken

/-- In runs of clean steps a target is found reached only after that many devices were added in its session, and the
first check with that many more trackers than at the start finds it reached. -/
theorem target_counts_additions {timeoutSeconds : ℕ} {trace : List PairingEvent} {s : PairingState}
    (h : (pairingSystem timeoutSeconds).RunWhere CountClean trace s) :
    EachAfter CountLaw trace ∧
    ∀ s' es, pairingStep timeoutSeconds s .targetCheck = some (s', es) → 0 < s.pairingTargetCount →
      s.pairingInitialCount.toNat + s.pairingTargetCount.toNat ≤ s.storedTrackers →
        ∃ time, ReachedAt (trace ++ es) time :=
  ⟨(count_invariant h).law, fun _ _ hstep hpositive henough =>
    (count_invariant h).reaches hstep hpositive henough⟩

/-- Two trackers are added and one is removed, with a target of one. -/
theorem target_counts_additions_one : ∃ trace s, (pairingSystem 60).Run trace s ∧ .reached 200 ∈ trace ∧
    EachAfter CountLaw trace := by
  obtain ⟨trace, s, hrun, htest⟩ :=
    ((pairingSystem 60).restrict fun s op => decide (CountClean s op)).exists_run_of_replay
      [.restore 2, .boot, .startPairingWithCount 1, .addPair, .popPair, .advance 100, .enterLoop, .timeoutCheck,
        .targetCheck, .addPair, .advance 100, .enterLoop, .timeoutCheck, .targetCheck]
      (fun trace _ => decide (.reached 200 ∈ trace)) (by decide +kernel)
  have hclean : (pairingSystem 60).RunWhere CountClean trace s :=
    EventSystem.runWhere_of_restrict (fun s op hallowed => of_decide_eq_true hallowed) hrun
  exact ⟨trace, s, hclean.run, of_decide_eq_true htest, (target_counts_additions hclean).1⟩

/-- A tracker is removed in a session for one device: at the next check the target is found reached, though no
device was added. -/
theorem target_reached_by_removal : ¬ ∀ trace s, (pairingSystem 60).Run trace s → EachAfter CountLaw trace := by
  intro hlaw
  obtain ⟨trace, s, hrun, htest⟩ := (pairingSystem 60).exists_run_of_replay
    [.restore 2, .boot, .startPairingWithCount 1, .popPair, .advance 100, .enterLoop, .timeoutCheck, .targetCheck]
    (fun trace _ => decide (trace = [PairingEvent.started 1] ++ .reached 100 :: [])) (by decide +kernel)
  have hcount := hlaw trace s hrun _ _ _ (of_decide_eq_true htest)
  exact absurd hcount.2 (by decide)

end Pairing

end SlimeReceiver
