import SlimeReceiver.Library.EventSystem
import SlimeReceiver.Tdma.State

/-! # Pairing sessions

The variables `esb_pairing` and `pairing_*` under the calls that start and end a session, the roster
operations and the checks of `esb_thread`. Each call and each check is one step.

* **`PairingState`**, **`pairingStep`**, **`pairingSystem`** — the system.
* **`SessionClean`** — the steps that leave no flag behind.
* **`block_only_in_session`** — new devices are blocked only by the session that runs. -/

namespace SlimeReceiver

namespace Pairing

/-! ## The system -/

/-- `PAIRING_EXIT_DELAY_MS`. -/
def pairingExitDelayMs : ℕ := 15000

/-- What a pairing session depends on. -/
structure PairingState where
  uptime : ℕ
  storeReady : Bool
  storedTrackers : ℕ
  /-- `esb_thread` has reached its loop. -/
  booted : Bool
  /-- `esb_thread` has read `esb_pairing` as true in this iteration. -/
  inLoop : Bool
  esbPairing : Bool
  pairingStartTime : ℕ
  pairingTargetCount : BitVec 8
  pairingInitialCount : BitVec 8
  pairingTargetReachedTime : ℕ
  pairingNewDevicesBlocked : Bool

def PairingState.init : PairingState where
  uptime := 0
  storeReady := false
  storedTrackers := 0
  booted := false
  inLoop := false
  esbPairing := false
  pairingStartTime := 0
  pairingTargetCount := 0
  pairingInitialCount := 0
  pairingTargetReachedTime := 0
  pairingNewDevicesBlocked := false

/-- The steps. -/
inductive PairingOp
  | advance (ms : ℕ)
  /-- `tracker_store_restore` succeeds. -/
  | restore (count : ℕ)
  /-- `esb_thread` before its loop. -/
  | boot
  | startPairing
  | startPairingWithCount (target : BitVec 8)
  | finishPair
  /-- `esb_add_pair` stores a new address. -/
  | addPair
  /-- `esb_pop_pair` removes one. -/
  | popPair
  | clear
  /-- The parts of an iteration of `esb_thread`. -/
  | enterLoop
  | timeoutCheck
  | targetCheck
  deriving DecidableEq

/-- The visible events. -/
inductive PairingEvent
  /-- A session starts with this target; no target is 0. -/
  | started (target : BitVec 8)
  | added
  /-- The target of the session is found reached. -/
  | reached (now : ℕ)
  /-- The session ends because its target was reached long enough ago. -/
  | exited (now : ℕ)
  deriving DecidableEq, Repr

namespace PairingState

/-- A pairing request of an unknown device is let through. -/
def acceptsUnknown (s : PairingState) : Bool := s.esbPairing && !s.pairingNewDevicesBlocked

/-- `esb_start_pairing` and `esb_start_pairing_with_count`. -/
def start (target : BitVec 8) (s : PairingState) : PairingState := { s with
  esbPairing := true
  pairingStartTime := s.uptime
  pairingTargetCount := target
  pairingInitialCount := BitVec.ofNat 8 s.storedTrackers }

/-- `esb_finish_pair`. -/
def finish (s : PairingState) : PairingState := { s with
  esbPairing := false
  pairingStartTime := 0
  pairingTargetCount := 0
  pairingInitialCount := 0
  pairingTargetReachedTime := 0
  pairingNewDevicesBlocked := false }

/-- `new_devices`, an unsigned byte. -/
def newDevices (s : PairingState) : BitVec 8 := BitVec.ofNat 8 s.storedTrackers - s.pairingInitialCount

/-- The check for a target reached finds it reached. -/
def targetMet (s : PairingState) : Bool :=
  decide (0 < s.pairingTargetCount) && decide (s.pairingTargetCount ≤ s.newDevices)

/-- The target reached is noted once. -/
def noteTarget (s : PairingState) : PairingState :=
  if s.pairingTargetReachedTime = 0 then { s with
    pairingTargetReachedTime := s.uptime
    pairingNewDevicesBlocked := true }
  else s

/-- The check for a target reached. -/
def checkTarget (s : PairingState) : PairingState × List PairingEvent :=
  if s.targetMet then
    let noted := s.noteTarget
    let reports := if s.pairingTargetReachedTime = 0 then [.reached s.uptime] else []
    if pairingExitDelayMs ≤ noted.uptime - noted.pairingTargetReachedTime then
      (noted.finish, reports ++ [PairingEvent.exited noted.uptime])
    else (noted, reports)
  else (s, [])

end PairingState

/-- The check for the timeout, `PAIRING_TIMEOUT_SECONDS` of which is configured. -/
def PairingState.checkTimeout (timeoutSeconds : ℕ) (s : PairingState) : PairingState :=
  if 0 < timeoutSeconds ∧ 0 < s.pairingStartTime ∧ timeoutSeconds * 1000 ≤ s.uptime - s.pairingStartTime then
    s.finish
  else s

/-- One step. -/
def pairingStep (timeoutSeconds : ℕ) (s : PairingState) : PairingOp → Option (PairingState × List PairingEvent)
  | .advance ms => some ({ s with uptime := s.uptime + ms }, [])
  | .restore count =>
    if s.storeReady then some (s, [])
    else if count ≤ maxTrackers then some ({ s with
      storedTrackers := count
      storeReady := true }, [])
    else none
  | .boot =>
    if s.booted then none
    else if s.storeReady ∧ s.storedTrackers = 0 then some ({ s with
      esbPairing := true
      pairingStartTime := s.uptime
      pairingTargetCount := 0
      pairingInitialCount := 0
      booted := true }, [.started 0])
    else some ({ s with booted := true }, [])
  | .startPairing => some (s.start 0, [.started 0])
  | .startPairingWithCount target => some (s.start target, [.started target])
  | .finishPair => some (s.finish, [])
  | .addPair =>
    if s.storeReady ∧ s.storedTrackers < maxTrackers then
      some ({ s with storedTrackers := s.storedTrackers + 1 }, [.added])
    else none
  | .popPair =>
    if s.storeReady ∧ s.storedTrackers ≠ 0 then
      some ({ s with storedTrackers := s.storedTrackers - 1 }, [])
    else none
  | .clear => some ({ s with
      esbPairing := false
      storedTrackers := 0
      storeReady := true }, [])
  | .enterLoop =>
    if s.booted ∧ ¬ s.inLoop then some ({ s with inLoop := s.esbPairing }, []) else none
  | .timeoutCheck =>
    if s.inLoop then some (s.checkTimeout timeoutSeconds, []) else none
  | .targetCheck =>
    if s.inLoop then some ({ s.checkTarget.1 with inLoop := false }, s.checkTarget.2) else none

/-- The receiver from its reset. -/
def pairingSystem (timeoutSeconds : ℕ) : EventSystem PairingState PairingOp PairingEvent where
  init := .init
  step := pairingStep timeoutSeconds

/-! ## Sessions of a history -/

/-- One event of the count of devices a session has added. -/
def countAdded (n : ℕ) : PairingEvent → ℕ
  | .started _ => 0
  | .added => n + 1
  | .reached _ | .exited _ => n

/-- The devices added since the last start of a session. -/
def addedSinceStart (trace : List PairingEvent) : ℕ := trace.foldl countAdded 0

/-- The target of the session was found reached at this time. -/
def ReachedAt (trace : List PairingEvent) (time : ℕ) : Prop :=
  ∃ earlier later, trace = earlier ++ PairingEvent.reached time :: later ∧ ∀ target, .started target ∉ later

/-- A session that ends on its target has had its full exit delay. -/
def ExitLaw (trace : List PairingEvent) : PairingEvent → Prop
  | .exited now => ∃ time, ReachedAt trace time ∧ time + pairingExitDelayMs ≤ now
  | _ => True

/-- The steps that do not leave a block behind or set one without a session that has reached its target: none starts
a session or clears the roster while new devices are blocked, no roster with trackers is restored under a target,
and no check finds a target met in a session that was cleared or has fewer trackers than at its start. -/
def SessionClean (s : PairingState) : PairingOp → Prop
  | .boot | .startPairing | .startPairingWithCount _ | .clear => s.pairingNewDevicesBlocked = false
  | .restore count => s.storeReady = true ∨ s.pairingTargetCount = 0 ∨ count = 0
  | .targetCheck => s.targetMet = true → s.esbPairing = true ∧ s.pairingInitialCount.toNat ≤ s.storedTrackers
  | _ => True

instance (s : PairingState) (op : PairingOp) : Decidable (SessionClean s op) := by
  cases op <;> unfold SessionClean <;> infer_instance

/-- What holds after every such step. -/
structure PairingInvariant (trace : List PairingEvent) (s : PairingState) : Prop where
  stored_le : s.storedTrackers ≤ maxTrackers
  blocked : s.pairingNewDevicesBlocked = true → s.esbPairing = true ∧ 0 < s.pairingTargetCount ∧
    s.pairingTargetCount.toNat ≤ addedSinceStart trace
  noted : s.pairingTargetReachedTime ≠ 0 → s.pairingNewDevicesBlocked = true
  reached : s.pairingTargetReachedTime ≠ 0 → ReachedAt trace s.pairingTargetReachedTime
  grown : s.esbPairing = true → 0 < s.pairingTargetCount →
    s.storedTrackers ≤ s.pairingInitialCount.toNat + addedSinceStart trace
  exits : EachAfter ExitLaw trace

section Steps

variable {timeoutSeconds : ℕ} {s s' : PairingState} {trace es : List PairingEvent} {op : PairingOp}

theorem addedSinceStart_concat (trace : List PairingEvent) (e : PairingEvent) :
    addedSinceStart (trace ++ [e]) = countAdded (addedSinceStart trace) e := by
  rw [addedSinceStart, List.foldl_append]
  rfl

/-- A target stays reached while no session starts. -/
theorem ReachedAt.append {time : ℕ} (h : ReachedAt trace time) (hes : ∀ target, .started target ∉ es) :
    ReachedAt (trace ++ es) time := by
  obtain ⟨earlier, later, rfl, hlater⟩ := h
  refine ⟨earlier, later ++ es, by rw [List.append_assoc, List.cons_append], fun target hmem => ?_⟩
  rcases List.mem_append.mp hmem with hold | hnew
  · exact hlater target hold
  · exact hes target hnew

/-- Time alone changes nothing. -/
theorem PairingInvariant.frame (h : PairingInvariant trace s)
    (hsame : s'.storedTrackers = s.storedTrackers ∧ s'.esbPairing = s.esbPairing ∧
      s'.pairingTargetCount = s.pairingTargetCount ∧ s'.pairingInitialCount = s.pairingInitialCount ∧
      s'.pairingTargetReachedTime = s.pairingTargetReachedTime ∧
      s'.pairingNewDevicesBlocked = s.pairingNewDevicesBlocked) : PairingInvariant trace s' := by
  obtain ⟨hstored, hpairing, htarget, hinitial, htime, hblocked⟩ := hsame
  constructor
  · rw [hstored]
    exact h.stored_le
  · rw [hblocked, hpairing, htarget]
    exact h.blocked
  · rw [htime, hblocked]
    exact h.noted
  · rw [htime]
    exact h.reached
  · rw [hpairing, htarget, hstored, hinitial]
    exact h.grown
  · exact h.exits

/-- Ending a session clears all it had. -/
theorem PairingInvariant.finish (h : PairingInvariant trace s) : PairingInvariant trace s.finish :=
  ⟨h.stored_le, fun hblocked => (by cases hblocked), fun hne => absurd rfl hne, fun hne => absurd rfl hne,
    fun hpairing => (by cases hpairing), h.exits⟩

/-- A session starts without a block. -/
theorem PairingInvariant.start (h : PairingInvariant trace s) (hclean : s.pairingNewDevicesBlocked = false)
    (target : BitVec 8) : PairingInvariant (trace ++ [PairingEvent.started target]) (s.start target) := by
  have htime : s.pairingTargetReachedTime = 0 := by
    by_contra hne
    exact absurd ((h.noted hne).symm.trans hclean) (by decide)
  have hinitial : (BitVec.ofNat 8 s.storedTrackers).toNat = s.storedTrackers := by
    rw [BitVec.toNat_ofNat, Nat.mod_eq_of_lt]
    exact lt_of_le_of_lt h.stored_le (by decide)
  refine ⟨h.stored_le, fun hblocked => absurd (hblocked.symm.trans hclean) (by decide),
    fun hne => absurd htime hne, fun hne => absurd htime hne, fun _ _ => ?_,
    h.exits.append fun _ e he => ?_⟩
  · rw [addedSinceStart_concat]
    show s.storedTrackers ≤ (BitVec.ofNat 8 s.storedTrackers).toNat + 0
    rw [hinitial]
    exact le_rfl
  · rw [List.mem_singleton] at he
    subst he
    exact trivial

/-- A target that is met in a running session was reached by devices the session added. -/
theorem PairingInvariant.met (h : PairingInvariant trace s) (hmet : s.targetMet = true)
    (hclean : SessionClean s .targetCheck) : s.esbPairing = true ∧ 0 < s.pairingTargetCount ∧
      s.pairingTargetCount.toNat ≤ addedSinceStart trace := by
  obtain ⟨hpairing, hgrown⟩ := hclean hmet
  simp only [PairingState.targetMet, Bool.and_eq_true, decide_eq_true_eq] at hmet
  obtain ⟨hpositive, hle⟩ := hmet
  refine ⟨hpairing, hpositive, ?_⟩
  have hadded := h.grown hpairing hpositive
  have hstored := h.stored_le
  have hnew : s.newDevices.toNat = s.storedTrackers - s.pairingInitialCount.toNat := by
    unfold PairingState.newDevices maxTrackers at *
    bv_omega
  have hle' : s.pairingTargetCount.toNat ≤ s.newDevices.toNat := hle
  omega

/-- Noting the target keeps the invariant. -/
theorem PairingInvariant.note (h : PairingInvariant trace s) (hmet : s.targetMet = true)
    (hclean : SessionClean s .targetCheck) :
    PairingInvariant (trace ++ if s.pairingTargetReachedTime = 0 then [.reached s.uptime] else []) s.noteTarget := by
  have hsession := h.met hmet hclean
  unfold PairingState.noteTarget
  split
  case isTrue hzero =>
    have hadded : addedSinceStart (trace ++ [PairingEvent.reached s.uptime]) = addedSinceStart trace :=
      addedSinceStart_concat _ _
    refine ⟨h.stored_le, fun _ => ?_, fun _ => rfl, fun _ => ⟨trace, [], rfl, by simp⟩,
      fun hpairing htarget => ?_, h.exits.append fun _ e he => ?_⟩
    · rw [hadded]
      exact hsession
    · rw [hadded]
      exact h.grown hpairing htarget
    · rw [List.mem_singleton] at he
      subst he
      exact trivial
  case isFalse =>
    rw [List.append_nil]
    exact h

/-- The check of the target keeps the invariant. -/
theorem PairingInvariant.checkTarget (h : PairingInvariant trace s) (hclean : SessionClean s .targetCheck) :
    PairingInvariant (trace ++ s.checkTarget.2) s.checkTarget.1 := by
  unfold PairingState.checkTarget
  split
  case isTrue hmet =>
    dsimp only
    split
    case isTrue hdelay =>
      -- a target noted just now has no delay behind it
      have hne : s.pairingTargetReachedTime ≠ 0 := by
        intro hzero
        rw [PairingState.noteTarget, if_pos hzero, Nat.sub_self] at hdelay
        exact absurd hdelay (by decide)
      rw [PairingState.noteTarget, if_neg hne] at hdelay ⊢
      rw [if_neg hne, List.nil_append]
      have hfinished := h.finish
      refine ⟨hfinished.stored_le, fun hblocked => (by cases hblocked), hfinished.noted,
        fun hne => absurd rfl hne, fun hpairing => (by cases hpairing), eachAfter_snoc.mpr ⟨h.exits, ?_⟩⟩
      refine ⟨_, h.reached hne, ?_⟩
      have hpositive : 0 < pairingExitDelayMs := by decide
      omega
    case isFalse => exact h.note hmet hclean
  case isFalse =>
    rw [List.append_nil]
    exact h

/-- Every clean step keeps the invariant. -/
theorem PairingInvariant.step (h : PairingInvariant trace s) (hclean : SessionClean s op)
    (hstep : pairingStep timeoutSeconds s op = some (s', es)) : PairingInvariant (trace ++ es) s' := by
  cases op with
  | advance ms =>
    obtain ⟨rfl, rfl⟩ := Prod.mk.inj (Option.some.inj hstep)
    rw [List.append_nil]
    exact h.frame ⟨rfl, rfl, rfl, rfl, rfl, rfl⟩
  | restore count =>
    simp only [pairingStep] at hstep
    split at hstep
    case isTrue =>
      obtain ⟨rfl, rfl⟩ := Prod.mk.inj (Option.some.inj hstep)
      rw [List.append_nil]
      exact h
    case isFalse hnot =>
      split at hstep
      case isTrue hcount =>
        obtain ⟨rfl, rfl⟩ := Prod.mk.inj (Option.some.inj hstep)
        rw [List.append_nil]
        refine ⟨hcount, h.blocked, h.noted, h.reached, fun hpairing htarget => ?_, h.exits⟩
        rcases hclean with hready | htarget' | rfl
        · exact absurd hready hnot
        · exact absurd htarget (by rw [htarget']; decide)
        · exact Nat.zero_le _
      case isFalse => cases hstep
  | boot =>
    simp only [pairingStep] at hstep
    split at hstep
    case isTrue => cases hstep
    case isFalse =>
      split at hstep
      case isTrue hempty =>
        obtain ⟨rfl, rfl⟩ := Prod.mk.inj (Option.some.inj hstep)
        refine (h.start hclean 0).frame ⟨rfl, rfl, rfl, ?_, rfl, rfl⟩
        show (0 : BitVec 8) = BitVec.ofNat 8 s.storedTrackers
        rw [hempty.2]
        rfl
      case isFalse =>
        obtain ⟨rfl, rfl⟩ := Prod.mk.inj (Option.some.inj hstep)
        rw [List.append_nil]
        exact h.frame ⟨rfl, rfl, rfl, rfl, rfl, rfl⟩
  | startPairing =>
    obtain ⟨rfl, rfl⟩ := Prod.mk.inj (Option.some.inj hstep)
    exact h.start hclean 0
  | startPairingWithCount target =>
    obtain ⟨rfl, rfl⟩ := Prod.mk.inj (Option.some.inj hstep)
    exact h.start hclean target
  | finishPair =>
    obtain ⟨rfl, rfl⟩ := Prod.mk.inj (Option.some.inj hstep)
    rw [List.append_nil]
    exact h.finish
  | addPair =>
    simp only [pairingStep] at hstep
    split at hstep
    case isTrue hroom =>
      obtain ⟨rfl, rfl⟩ := Prod.mk.inj (Option.some.inj hstep)
      have hadded : addedSinceStart (trace ++ [PairingEvent.added]) = addedSinceStart trace + 1 :=
        addedSinceStart_concat _ _
      refine ⟨hroom.2, fun hblocked => ?_, h.noted, fun hne => (h.reached hne).append (by simp),
        fun hpairing htarget => ?_, h.exits.append fun _ e he => ?_⟩
      · obtain ⟨hpairing, htarget, hreached⟩ := h.blocked hblocked
        exact ⟨hpairing, htarget, by rw [hadded]; exact Nat.le_succ_of_le hreached⟩
      · rw [hadded, ← Nat.add_assoc]
        exact Nat.succ_le_succ (h.grown hpairing htarget)
      · rw [List.mem_singleton] at he
        subst he
        exact trivial
    case isFalse => cases hstep
  | popPair =>
    simp only [pairingStep] at hstep
    split at hstep
    case isTrue =>
      obtain ⟨rfl, rfl⟩ := Prod.mk.inj (Option.some.inj hstep)
      rw [List.append_nil]
      exact ⟨(Nat.sub_le _ _).trans h.stored_le, h.blocked, h.noted, h.reached,
        fun hpairing htarget => (Nat.sub_le _ _).trans (h.grown hpairing htarget), h.exits⟩
    case isFalse => cases hstep
  | clear =>
    obtain ⟨rfl, rfl⟩ := Prod.mk.inj (Option.some.inj hstep)
    rw [List.append_nil]
    have hfree : s.pairingNewDevicesBlocked = false := hclean
    exact ⟨Nat.zero_le _, fun hblocked => absurd (hblocked.symm.trans hfree) (by decide), h.noted, h.reached,
      fun hpairing => (by cases hpairing), h.exits⟩
  | enterLoop =>
    simp only [pairingStep] at hstep
    split at hstep
    case isTrue =>
      obtain ⟨rfl, rfl⟩ := Prod.mk.inj (Option.some.inj hstep)
      rw [List.append_nil]
      exact h.frame ⟨rfl, rfl, rfl, rfl, rfl, rfl⟩
    case isFalse => cases hstep
  | timeoutCheck =>
    simp only [pairingStep] at hstep
    split at hstep
    case isTrue =>
      obtain ⟨rfl, rfl⟩ := Prod.mk.inj (Option.some.inj hstep)
      rw [List.append_nil]
      unfold PairingState.checkTimeout
      split
      · exact h.finish
      · exact h
    case isFalse => cases hstep
  | targetCheck =>
    simp only [pairingStep] at hstep
    split at hstep
    case isTrue =>
      obtain ⟨rfl, rfl⟩ := Prod.mk.inj (Option.some.inj hstep)
      exact (h.checkTarget hclean).frame ⟨rfl, rfl, rfl, rfl, rfl, rfl⟩
    case isFalse => cases hstep

/-- What a clean step that starts a session leaves behind. -/
theorem start_fresh (h : PairingInvariant trace s) (hclean : SessionClean s op)
    (hstep : pairingStep timeoutSeconds s op = some (s', es)) {target : BitVec 8} (hstarted : .started target ∈ es) :
    s'.acceptsUnknown = true ∧ s'.pairingTargetReachedTime = 0 := by
  have hfresh : s.pairingNewDevicesBlocked = false → s.pairingTargetReachedTime = 0 := by
    intro hfree
    by_contra hne
    exact absurd ((h.noted hne).symm.trans hfree) (by decide)
  cases op with
  | startPairing | startPairingWithCount =>
    obtain ⟨rfl, rfl⟩ := Prod.mk.inj (Option.some.inj hstep)
    have hfree : s.pairingNewDevicesBlocked = false := hclean
    refine ⟨?_, hfresh hfree⟩
    show (true && !s.pairingNewDevicesBlocked) = true
    rw [hfree]
    rfl
  | boot =>
    simp only [pairingStep] at hstep
    split at hstep
    case isTrue => cases hstep
    case isFalse =>
      have hfree : s.pairingNewDevicesBlocked = false := hclean
      split at hstep <;> obtain ⟨rfl, rfl⟩ := Prod.mk.inj (Option.some.inj hstep)
      · refine ⟨?_, hfresh hfree⟩
        show (true && !s.pairingNewDevicesBlocked) = true
        rw [hfree]
        rfl
      · cases hstarted
  | advance | finishPair | clear =>
    obtain ⟨-, rfl⟩ := Prod.mk.inj (Option.some.inj hstep)
    cases hstarted
  | restore =>
    simp only [pairingStep] at hstep
    split at hstep
    · obtain ⟨-, rfl⟩ := Prod.mk.inj (Option.some.inj hstep)
      cases hstarted
    · split at hstep
      · obtain ⟨-, rfl⟩ := Prod.mk.inj (Option.some.inj hstep)
        cases hstarted
      · cases hstep
  | addPair | popPair | enterLoop | timeoutCheck =>
    simp only [pairingStep] at hstep
    split at hstep
    · obtain ⟨-, rfl⟩ := Prod.mk.inj (Option.some.inj hstep)
      simp at hstarted
    · cases hstep
  | targetCheck =>
    simp only [pairingStep] at hstep
    split at hstep
    · obtain ⟨-, rfl⟩ := Prod.mk.inj (Option.some.inj hstep)
      unfold PairingState.checkTarget at hstarted
      split at hstarted
      · dsimp only at hstarted
        split at hstarted <;> split at hstarted <;> simp at hstarted
      · cases hstarted
    · cases hstep

end Steps

theorem pairing_invariant {timeoutSeconds : ℕ} {trace : List PairingEvent} {s : PairingState}
    (h : (pairingSystem timeoutSeconds).RunWhere SessionClean trace s) : PairingInvariant trace s := by
  induction h with
  | start => exact ⟨Nat.zero_le _, fun hblocked => (by cases hblocked), fun hne => absurd rfl hne,
      fun hne => absurd rfl hne, fun hpairing => (by cases hpairing), eachAfter_nil⟩
  | snoc _ hclean htaken ih => exact ih.step hclean htaken

/-- New devices are blocked only while a session runs that has reached its target, a session starts without a block
and without a target already noted, and it ends on its target only after its full exit delay. -/
theorem block_only_in_session {timeoutSeconds : ℕ} {trace : List PairingEvent} {s : PairingState}
    (h : (pairingSystem timeoutSeconds).RunWhere SessionClean trace s) :
    (s.pairingNewDevicesBlocked = true → s.esbPairing = true ∧ 0 < s.pairingTargetCount ∧
      s.pairingTargetCount.toNat ≤ addedSinceStart trace) ∧
    (∀ op s' es target, SessionClean s op → pairingStep timeoutSeconds s op = some (s', es) →
      .started target ∈ es → s'.acceptsUnknown = true ∧ s'.pairingTargetReachedTime = 0) ∧
    EachAfter ExitLaw trace := by
  have hinv := pairing_invariant h
  exact ⟨hinv.blocked, fun op s' es target hclean hstep hstarted => start_fresh hinv hclean hstep hstarted,
    hinv.exits⟩

/-- A session for one device ends after its exit delay, and the next one starts. -/
def oneDevice : List PairingOp :=
  [.restore 2, .boot, .startPairingWithCount 1, .addPair, .advance 100, .enterLoop, .timeoutCheck, .targetCheck,
    .advance 15000, .enterLoop, .timeoutCheck, .targetCheck, .startPairing]

theorem block_only_in_session_one : ∃ trace s, (pairingSystem 60).Run trace s ∧ .exited 15100 ∈ trace ∧
    s.acceptsUnknown = true ∧ EachAfter ExitLaw trace := by
  obtain ⟨trace, s, hrun, htest⟩ :=
    ((pairingSystem 60).restrict fun s op => decide (SessionClean s op)).exists_run_of_replay oneDevice
      (fun trace s => decide (.exited 15100 ∈ trace ∧ s.acceptsUnknown = true)) (by decide +kernel)
  have hclean : (pairingSystem 60).RunWhere SessionClean trace s :=
    EventSystem.runWhere_of_restrict (fun s op hallowed => of_decide_eq_true hallowed) hrun
  obtain ⟨hexited, haccepts⟩ := of_decide_eq_true htest
  exact ⟨trace, s, hclean.run, hexited, haccepts, (block_only_in_session hclean).2.2⟩

/-- After a session that reached its target the roster is cleared: the session started next accepts no unknown
device, though it has no target. -/
theorem block_survives_clear : ∃ trace s, (pairingSystem 60).Run trace s ∧
    s.pairingNewDevicesBlocked = true ∧ s.esbPairing = true ∧ s.pairingTargetCount = 0 ∧
      s.acceptsUnknown = false ∧ addedSinceStart trace = 0 := by
  obtain ⟨trace, s, hrun, htest⟩ := (pairingSystem 60).exists_run_of_replay
    [.restore 2, .boot, .startPairingWithCount 1, .addPair, .advance 100, .enterLoop, .timeoutCheck, .targetCheck,
      .clear, .startPairing]
    (fun trace s => decide (s.pairingNewDevicesBlocked = true ∧ s.esbPairing = true ∧ s.pairingTargetCount = 0 ∧
      s.acceptsUnknown = false ∧ addedSinceStart trace = 0)) (by decide +kernel)
  exact ⟨trace, s, hrun, of_decide_eq_true htest⟩

end Pairing

end SlimeReceiver
