import SlimeReceiver.Hid.Fifo

/-! # Pushes that are refused

`hid_fifo_try_push` samples the write position and then the read position. The records outstanding are counted beside
the ring, from the moment a call begins, to tell a refusal for lack of space from one that has no cause.

* **`PushWorld`**, **`pushSystem`** — the ring with the number of records consumed and, for every producer, the most
  that were outstanding during its call.
* **`SampleCurrent`** — the consumer has not passed the sampled write position when the read position is sampled.
* **`refused_for_space`** — in runs of such steps a push is refused only when there was no space. -/

namespace SlimeReceiver

open Function (update update_self update_of_ne)

namespace Hid

/-! ## The ring with its occupancy -/

/-- The ring, the number of records consumed, and the most records outstanding at once since a producer's call
began. -/
structure PushWorld where
  fifo : HidFifo
  consumed : ℕ
  peak : ℕ → ℕ

/-- The records claimed and not yet consumed. -/
def PushWorld.outstanding (w : PushWorld) : ℕ := w.fifo.claims - w.consumed

/-- The visible events. -/
inductive PushEvent
  /-- A push returned false; so many records were outstanding at some instant of the call, and never more. -/
  | refused (priority : Bool) (peak : ℕ)
  deriving DecidableEq, Repr

/-- The call of a producer begins. -/
def HidFifoOp.begins (t : ℕ) : HidFifoOp → Bool
  | .push t' _ _ => t' == t
  | _ => false

/-- A push returned false. -/
def HidFifoEvent.isRefused : HidFifoEvent → Bool
  | .refused => true
  | _ => false

/-- The refusals a step reports. -/
def refusals (fifo : HidFifo) (op : HidFifoOp) (events : List HidFifoEvent) (peak : ℕ → ℕ) : List PushEvent :=
  match op with
  | .check t =>
    match fifo.producers t with
    | .loaded _ priority _ _ => if events.any HidFifoEvent.isRefused then [.refused priority (peak t)] else []
    | _ => []
  | _ => []

/-- One step of the ring's users. -/
def pushStep (w : PushWorld) (op : HidFifoOp) : Option (PushWorld × List PushEvent) :=
  (hidFifoStep w.fifo op).map fun next =>
    let consumed := w.consumed + (consumedRecords next.2).length
    let outstanding := next.1.claims - consumed
    let peak := fun t => if op.begins t then outstanding else max (w.peak t) outstanding
    (⟨next.1, consumed, peak⟩, refusals w.fifo op next.2 peak)

/-- The ring after its initialization. -/
def pushSystem : EventSystem PushWorld HidFifoOp PushEvent where
  init := ⟨.init, 0, fun _ => 0⟩
  step := pushStep

/-- What is counted beside the ring does not change what it does. -/
theorem pushSystem_fifo {trace : List PushEvent} {w : PushWorld} (h : pushSystem.Run trace w) :
    ∃ trace', hidFifoSystem.Run trace' w.fifo := by
  induction h with
  | start => exact ⟨[], .start⟩
  | snoc _ _ htaken ih =>
    obtain ⟨trace', hrun⟩ := ih
    obtain ⟨next, hstep, heq⟩ := Option.map_eq_some_iff.mp htaken
    obtain ⟨rfl, -⟩ := Prod.mk.inj heq
    exact ⟨trace' ++ next.2, .snoc hrun trivial hstep⟩

/-! ## Refusals -/

/-- The records outstanding at which a push is refused. -/
def pushLimit (priority : Bool) : ℕ := if priority then maxReports else maxReports - hidFifoPriorityReserve

/-- A push is refused only if at some instant of the call there was no space. -/
def ForSpace : PushEvent → Prop
  | .refused priority peak => pushLimit priority ≤ peak

/-- When a producer samples the read position, no more records are consumed than were claimed when it sampled the write
position. -/
def SampleCurrent (w : PushWorld) : HidFifoOp → Prop
  | .check t => match w.fifo.producers t with
    | .loaded _ _ _ seen => w.consumed ≤ seen
    | _ => True
  | _ => True

instance (w : PushWorld) (op : HidFifoOp) : Decidable (SampleCurrent w op) := by
  unfold SampleCurrent
  split
  · split <;> infer_instance
  · infer_instance

/-- The positions are the numbers of records claimed and consumed. -/
structure SampleInvariant (w : PushWorld) : Prop where
  writePos : w.fifo.writePos = BitVec.ofNat 32 w.fifo.claims
  readPos : w.fifo.readPos = BitVec.ofNat 32 w.consumed
  advancing : ∀ read out, w.fifo.consumer = .advancing read out → read = w.fifo.readPos
  sampled : ∀ t record priority pos seen, w.fifo.producers t = .loaded record priority pos seen →
    pos = BitVec.ofNat 32 seen ∧ seen ≤ w.fifo.claims

section Steps

variable {w : PushWorld} {fifo : HidFifo} {peak : ℕ → ℕ} {t : ℕ} {producer : Producer}

/-- A step of the consumer that moves no position. -/
theorem SampleInvariant.consume (h : SampleInvariant w) (hwrite : fifo.writePos = w.fifo.writePos)
    (hclaims : fifo.claims = w.fifo.claims) (hread : fifo.readPos = w.fifo.readPos)
    (hproducers : fifo.producers = w.fifo.producers)
    (hconsumer : ∀ read out, fifo.consumer = .advancing read out → read = fifo.readPos) :
    SampleInvariant ⟨fifo, w.consumed, peak⟩ := by
  constructor
  · exact hwrite.trans (h.writePos.trans (congrArg _ hclaims.symm))
  · exact hread.trans h.readPos
  · exact hconsumer
  · dsimp only
    rw [hproducers, hclaims]
    exact h.sampled

/-- A step of a producer that claims nothing. -/
theorem SampleInvariant.move (h : SampleInvariant w) (hwrite : fifo.writePos = w.fifo.writePos)
    (hclaims : fifo.claims = w.fifo.claims) (hread : fifo.readPos = w.fifo.readPos)
    (hconsumer : fifo.consumer = w.fifo.consumer) (hproducers : fifo.producers = update w.fifo.producers t producer)
    (hproducer : ∀ record priority pos seen, producer = .loaded record priority pos seen →
      pos = BitVec.ofNat 32 seen ∧ seen ≤ w.fifo.claims) :
    SampleInvariant ⟨fifo, w.consumed, peak⟩ := by
  constructor
  · exact hwrite.trans (h.writePos.trans (congrArg _ hclaims.symm))
  · exact hread.trans h.readPos
  · dsimp only
    rw [hconsumer, hread]
    exact h.advancing
  · dsimp only
    rw [hproducers, hclaims]
    intro t' record priority pos seen ht'
    by_cases hsame : t' = t
    · subst hsame
      rw [update_self] at ht'
      exact hproducer _ _ _ _ ht'
    · rw [update_of_ne hsame] at ht'
      exact h.sampled _ _ _ _ _ ht'

/-- Every step keeps the positions right. -/
theorem SampleInvariant.step (h : SampleInvariant w) {op : HidFifoOp} {w' : PushWorld} {es : List PushEvent}
    (hstep : pushStep w op = some (w', es)) : SampleInvariant w' := by
  obtain ⟨⟨fifo, events⟩, hfifo, heq⟩ := Option.map_eq_some_iff.mp hstep
  obtain ⟨rfl, -⟩ := Prod.mk.inj heq
  dsimp only
  cases op with
  | push t record priority =>
    simp only [hidFifoStep] at hfifo
    split at hfifo
    case h_1 =>
      obtain ⟨rfl, rfl⟩ := Prod.mk.inj (Option.some.inj hfifo)
      exact h.move rfl rfl rfl rfl rfl fun _ _ _ _ hloaded => (by cases hloaded)
    case h_2 => cases hfifo
  | load t =>
    simp only [hidFifoStep] at hfifo
    split at hfifo
    case h_1 =>
      obtain ⟨rfl, rfl⟩ := Prod.mk.inj (Option.some.inj hfifo)
      refine h.move rfl rfl rfl rfl rfl fun _ _ _ _ hloaded => ?_
      cases hloaded
      exact ⟨h.writePos, le_rfl⟩
    case h_2 => cases hfifo
  | check t =>
    simp only [hidFifoStep] at hfifo
    split at hfifo
    case h_1 =>
      split at hfifo
      case isTrue =>
        obtain ⟨rfl, rfl⟩ := Prod.mk.inj (Option.some.inj hfifo)
        exact h.move rfl rfl rfl rfl rfl fun _ _ _ _ hloaded => (by cases hloaded)
      case isFalse =>
        obtain ⟨rfl, rfl⟩ := Prod.mk.inj (Option.some.inj hfifo)
        exact h.move rfl rfl rfl rfl rfl fun _ _ _ _ hloaded => (by cases hloaded)
    case h_2 => cases hfifo
  | swap t =>
    simp only [hidFifoStep] at hfifo
    split at hfifo
    case h_1 record priority pos seen hplace =>
      split at hfifo
      case isTrue hcurrent =>
        obtain ⟨rfl, rfl⟩ := Prod.mk.inj (Option.some.inj hfifo)
        constructor
        · show pos + 1 = BitVec.ofNat 32 (w.fifo.claims + 1)
          rw [ofNat_succ, ← h.writePos, hcurrent]
        · exact h.readPos
        · exact h.advancing
        · intro t' record' priority' pos' seen' ht'
          by_cases hsame : t' = t
          · subst hsame
            rw [show ({ w.fifo.withProducer t' _ with writePos := pos + 1, claims := w.fifo.claims + 1 } :
              HidFifo).producers t' = _ from update_self _ _ _] at ht'
            cases ht'
          · have hother : w.fifo.producers t' = .loaded record' priority' pos' seen' :=
              (update_of_ne hsame _ _).symm.trans ht'
            obtain ⟨hpos, hle⟩ := h.sampled _ _ _ _ _ hother
            exact ⟨hpos, Nat.le_succ_of_le hle⟩
      case isFalse =>
        obtain ⟨rfl, rfl⟩ := Prod.mk.inj (Option.some.inj hfifo)
        exact h.move rfl rfl rfl rfl rfl fun _ _ _ _ hloaded => (by cases hloaded)
    case h_2 => cases hfifo
  | copy t =>
    simp only [hidFifoStep] at hfifo
    split at hfifo
    case h_1 =>
      split at hfifo
      case isTrue =>
        obtain ⟨rfl, rfl⟩ := Prod.mk.inj (Option.some.inj hfifo)
        exact h.move rfl rfl rfl rfl rfl fun _ _ _ _ hloaded => (by cases hloaded)
      case isFalse => cases hfifo
    case h_2 => cases hfifo
  | publish t =>
    simp only [hidFifoStep] at hfifo
    split at hfifo
    case h_1 =>
      split at hfifo
      case isTrue =>
        obtain ⟨rfl, rfl⟩ := Prod.mk.inj (Option.some.inj hfifo)
        exact h.move rfl rfl rfl rfl rfl fun _ _ _ _ hloaded => (by cases hloaded)
      case isFalse => cases hfifo
    case h_2 => cases hfifo
  | peek =>
    simp only [hidFifoStep] at hfifo
    split at hfifo
    case h_1 =>
      obtain ⟨rfl, rfl⟩ := Prod.mk.inj (Option.some.inj hfifo)
      exact h.consume rfl rfl rfl rfl fun _ _ hadvancing => (by cases hadvancing)
    case h_2 => cases hfifo
  | look =>
    simp only [hidFifoStep] at hfifo
    split at hfifo
    case h_1 =>
      split at hfifo
      case isTrue =>
        obtain ⟨rfl, rfl⟩ := Prod.mk.inj (Option.some.inj hfifo)
        exact h.consume rfl rfl rfl rfl fun _ _ hadvancing => (by cases hadvancing)
      case isFalse =>
        obtain ⟨rfl, rfl⟩ := Prod.mk.inj (Option.some.inj hfifo)
        exact h.consume rfl rfl rfl rfl fun _ _ hadvancing => (by cases hadvancing)
    case h_2 => cases hfifo
  | copyOut =>
    simp only [hidFifoStep] at hfifo
    split at hfifo
    case h_1 =>
      split at hfifo
      case isTrue =>
        obtain ⟨rfl, rfl⟩ := Prod.mk.inj (Option.some.inj hfifo)
        exact h.consume rfl rfl rfl rfl fun _ _ hadvancing => (by cases hadvancing)
      case isFalse =>
        obtain ⟨rfl, rfl⟩ := Prod.mk.inj (Option.some.inj hfifo)
        exact h.consume rfl rfl rfl rfl fun _ _ hadvancing => (by cases hadvancing)
    case h_2 => cases hfifo
  | submitted ok =>
    simp only [hidFifoStep] at hfifo
    split at hfifo
    case h_1 =>
      obtain ⟨rfl, rfl⟩ := Prod.mk.inj (Option.some.inj hfifo)
      cases ok with
      | true => exact h.consume rfl rfl rfl rfl fun _ _ hadvancing => (by cases hadvancing)
      | false => exact h.consume rfl rfl rfl rfl fun _ _ hadvancing => (by cases hadvancing)
    case h_2 => cases hfifo
  | release =>
    simp only [hidFifoStep] at hfifo
    split at hfifo
    case h_1 =>
      obtain ⟨rfl, rfl⟩ := Prod.mk.inj (Option.some.inj hfifo)
      exact h.consume rfl rfl rfl rfl fun _ _ hadvancing => (by cases hadvancing)
    case h_2 =>
      obtain ⟨rfl, rfl⟩ := Prod.mk.inj (Option.some.inj hfifo)
      refine h.consume rfl rfl rfl rfl fun _ _ hadvancing => ?_
      cases hadvancing
      rfl
    case h_3 => cases hfifo
  | advance =>
    simp only [hidFifoStep] at hfifo
    split at hfifo
    case h_1 read record out hplace =>
      obtain ⟨rfl, rfl⟩ := Prod.mk.inj (Option.some.inj hfifo)
      refine ⟨h.writePos, ?_, fun _ _ hadvancing => (by cases hadvancing), h.sampled⟩
      show read + 1 = BitVec.ofNat 32 (w.consumed + 1)
      rw [h.advancing _ _ hplace, h.readPos, ofNat_succ]
    case h_2 => cases hfifo

/-- A refusal with a current sample was for lack of space. -/
theorem SampleInvariant.refusal (h : SampleInvariant w) {op : HidFifoOp} {w' : PushWorld} {es : List PushEvent}
    (hcurrent : SampleCurrent w op) (hstep : pushStep w op = some (w', es)) : ∀ e ∈ es, ForSpace e := by
  obtain ⟨⟨fifo, events⟩, hfifo, heq⟩ := Option.map_eq_some_iff.mp hstep
  obtain ⟨rfl, rfl⟩ := Prod.mk.inj heq
  intro e he
  unfold refusals at he
  split at he
  case h_2 => cases he
  case h_1 t =>
    split at he
    case h_2 => cases he
    case h_1 record priority pos seen hplace =>
      split at he
      case isFalse => cases he
      case isTrue hrefused =>
        rw [List.mem_singleton] at he
        subst he
        have hseen : w.consumed ≤ seen := by
          simp only [SampleCurrent, hplace] at hcurrent
          exact hcurrent
        obtain ⟨hpos, hle⟩ := h.sampled _ _ _ _ _ hplace
        simp only [hidFifoStep, hplace] at hfifo
        split at hfifo
        case isTrue =>
          obtain ⟨rfl, rfl⟩ := Prod.mk.inj (Option.some.inj hfifo)
          cases hrefused
        case isFalse hfull =>
          obtain ⟨rfl, rfl⟩ := Prod.mk.inj (Option.some.inj hfifo)
          -- the sampled difference is no more than what is outstanding now
          have hcount : (pos - w.fifo.readPos).toNat ≤ w.fifo.claims - w.consumed := by
            rw [hpos, h.readPos]
            bv_omega
          have hlimit : pushLimit priority ≤ w.fifo.claims - w.consumed := by
            unfold HidFifo.hasRoom at hfull
            unfold pushLimit hidFifoPriorityReserve maxReports at *
            cases priority with
            | true =>
              simp only [Bool.true_or, Bool.and_true, decide_eq_true_eq, not_lt] at hfull
              exact hfull.trans hcount
            | false =>
              simp only [Bool.false_or, Bool.and_eq_true, decide_eq_true_eq, not_and, not_lt] at hfull
              show 64 - 2 ≤ _
              omega
          exact hlimit.trans (le_max_right _ _)

end Steps

/-- In runs in which no read position is sampled after it has passed the sampled write position, a push is refused only
if at some instant of the call as many records were outstanding as there are slots for its kind. -/
theorem refused_for_space {trace : List PushEvent} {w : PushWorld} (h : pushSystem.RunWhere SampleCurrent trace w) :
    ∀ e ∈ trace, ForSpace e := by
  have hboth : (∀ e ∈ trace, ForSpace e) ∧ SampleInvariant w := by
    induction h with
    | start => exact ⟨fun _ he => (by cases he), rfl, rfl, fun _ _ hadvancing => (by cases hadvancing),
        fun _ _ _ _ _ hloaded => (by cases hloaded)⟩
    | snoc _ hcurrent htaken ih =>
      refine ⟨fun e he => ?_, ih.2.step htaken⟩
      rcases List.mem_append.mp he with hold | hnew
      · exact ih.1 e hold
      · exact ih.2.refusal hcurrent htaken e hnew
  exact hboth.1

/-- Sixty-two producers claim a position each and another one is refused. -/
def fillUp : List HidFifoOp :=
  (List.range 62).flatMap (fun t => [HidFifoOp.push t someRecord false, .load t, .check t, .swap t]) ++
    [.push 62 someRecord false, .load 62, .check 62]

theorem refused_for_space_full : ∃ trace w, pushSystem.RunWhere SampleCurrent trace w ∧
    trace = [.refused false 62] ∧ ∀ e ∈ trace, ForSpace e := by
  obtain ⟨trace, w, hrun, htest⟩ :=
    (pushSystem.restrict fun w op => decide (SampleCurrent w op)).exists_run_of_replay fillUp
      (fun trace _ => decide (trace = [.refused false 62])) (by decide +kernel)
  have hcurrent : pushSystem.RunWhere SampleCurrent trace w :=
    EventSystem.runWhere_of_restrict (fun w op hallowed => of_decide_eq_true hallowed) hrun
  exact ⟨trace, w, hcurrent, of_decide_eq_true htest, refused_for_space hcurrent⟩

/-- Producer 0 samples the write position and is preempted while producer 1 pushes a record and the consumer
takes it. -/
def preempted : List HidFifoOp :=
  [HidFifoOp.push 0 someRecord true, .load 0, .push 1 someRecord true, .load 1, .check 1, .swap 1] ++
    List.replicate 17 (HidFifoOp.copy 1) ++ [HidFifoOp.publish 1, .peek, .look] ++
    List.replicate 18 HidFifoOp.copyOut ++ [HidFifoOp.look, .submitted true, .release, .advance, .check 0]

/-- The push of a preempted producer is refused though never more than one record was outstanding. -/
theorem refused_without_cause : ¬ ∀ trace w, pushSystem.Run trace w → ∀ e ∈ trace, ForSpace e := by
  intro hspace
  obtain ⟨trace, w, hrun, htest⟩ := pushSystem.exists_run_of_replay preempted
    (fun trace _ => decide (.refused true 1 ∈ trace)) (by decide +kernel)
  have hrefused : pushLimit true ≤ 1 := hspace trace w hrun _ (of_decide_eq_true htest)
  exact absurd hrefused (by decide)

end Hid

end SlimeReceiver
