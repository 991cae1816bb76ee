import Mathlib.Algebra.Order.Group.Nat
import Mathlib.Data.List.GetD
import Mathlib.Data.List.Nodup
import Mathlib.Logic.Function.Basic
import SlimeReceiver.Library.EventSystem

/-! # The HID record FIFO

`hid_fifo_*` of `hid.c`: a ring with tickets and a sequence number in every slot, any number of producers
and one consumer. Every atomic access and every field of a record that is copied is one step.

* **`HidFifo`**, **`hidFifoStep`**, **`hidFifoSystem`** — the ring and the places its users are at.
* **`SwapFresh`** — a producer is not overtaken by a multiple of 2^32 claims before its swap.
* **`hid_fifo_correct`** — what the consumer gets is what was pushed. -/

namespace SlimeReceiver

open Function (update update_self update_of_ne)

namespace Hid

/-! ## The ring -/

/-- `MAX_REPORTS`. -/
def maxReports : ℕ := 64
/-- `HID_FIFO_PRIORITY_RESERVE`. -/
def hidFifoPriorityReserve : ℕ := 2
/-- `HID_EP_REPORT_COUNT`. -/
def hidEpReportCount : ℕ := 4

/-- The fields of a record: its sixteen bytes and the subscription generation. -/
abbrev HidRecord := Fin 17 → BitVec 32

/-- `struct hid_fifo_slot`. -/
structure HidSlot where
  record : HidRecord
  seq : BitVec 32

/-- Where a producer is in `hid_fifo_try_push`; `seen` counts the claims made before `pos` was read. -/
inductive Producer
  | idle
  | started (record : HidRecord) (priority : Bool)
  | loaded (record : HidRecord) (priority : Bool) (pos : BitVec 32) (seen : ℕ)
  | checked (record : HidRecord) (priority : Bool) (pos : BitVec 32) (seen : ℕ)
  /-- `k` fields are copied. -/
  | writing (record : HidRecord) (pos : BitVec 32) (seen k : ℕ)

/-- Where the consumer is in `send_report`. -/
inductive Consumer
  | idle
  /-- At the head of the loop of `hid_fifo_peek_batch`, with the records copied so far. -/
  | peeking (read : BitVec 32) (out : List HidRecord)
  | copying (read : BitVec 32) (out : List HidRecord) (part : HidRecord) (k : ℕ)
  /-- The batch is with the USB driver. -/
  | peeked (out : List HidRecord)
  /-- In `hid_fifo_consume`, with the records still to consume. -/
  | consuming (out : List HidRecord)
  /-- The slot is released, the read position not yet moved. -/
  | advancing (read : BitVec 32) (out : List HidRecord)

/-- The static variables of the ring, with the users' places; `claims` counts the positions claimed. -/
structure HidFifo where
  writePos : BitVec 32
  readPos : BitVec 32
  slots : ℕ → HidSlot
  producers : ℕ → Producer
  consumer : Consumer
  claims : ℕ

/-- `hid_fifo_init`. -/
def HidFifo.init : HidFifo where
  writePos := 0
  readPos := 0
  slots i := ⟨fun _ => 0, BitVec.ofNat 32 i⟩
  producers _ := .idle
  consumer := .idle
  claims := 0

/-- `pos & HID_FIFO_MASK`. -/
def slotOf (pos : BitVec 32) : ℕ := (pos &&& 63).toNat

/-- The steps. -/
inductive HidFifoOp
  | push (t : ℕ) (record : HidRecord) (priority : Bool)
  | load (t : ℕ)
  | check (t : ℕ)
  | swap (t : ℕ)
  | copy (t : ℕ)
  | publish (t : ℕ)
  | peek
  | look
  | copyOut
  | submitted (ok : Bool)
  | release
  | advance

/-- The visible events. -/
inductive HidFifoEvent
  /-- The next position was claimed for a record. -/
  | claimed (record : HidRecord)
  /-- A push of the record at this position returned true. -/
  | pushed (position : ℕ) (record : HidRecord)
  | refused
  /-- A batch is with the USB driver. -/
  | batch (out : List HidRecord)
  | consumed (record : HidRecord)

namespace HidFifo

/-- The check for room, of a position read before. -/
def hasRoom (priority : Bool) (pos read : BitVec 32) : Bool :=
  let count := (pos - read).toNat
  decide (count < maxReports) && (priority || decide (hidFifoPriorityReserve < maxReports - count))

/-- A producer moved on. -/
def withProducer (t : ℕ) (p : Producer) (s : HidFifo) : HidFifo :=
  { s with producers := update s.producers t p }

/-- A slot replaced. -/
def withSlot (i : ℕ) (slot : HidSlot) (s : HidFifo) : HidFifo := { s with slots := update s.slots i slot }

@[simp] theorem withProducer_self (t : ℕ) (p : Producer) (s : HidFifo) : (s.withProducer t p).producers t = p :=
  update_self _ _ _

theorem withProducer_of_ne {t t' : ℕ} (h : t' ≠ t) (p : Producer) (s : HidFifo) :
    (s.withProducer t p).producers t' = s.producers t' := update_of_ne h _ _

end HidFifo

/-- A field of a record copied. -/
def copyField (source target : HidRecord) (k : ℕ) : HidRecord :=
  fun j => if j.val = k then source j else target j

/-- One step of the ring's users. -/
def hidFifoStep (s : HidFifo) : HidFifoOp → Option (HidFifo × List HidFifoEvent)
  | .push t record priority =>
    match s.producers t with
    | .idle => some (s.withProducer t (.started record priority), [])
    | _ => none
  | .load t =>
    match s.producers t with
    | .started record priority => some (s.withProducer t (.loaded record priority s.writePos s.claims), [])
    | _ => none
  | .check t =>
    match s.producers t with
    | .loaded record priority pos seen =>
      if HidFifo.hasRoom priority pos s.readPos then
        some (s.withProducer t (.checked record priority pos seen), [])
      else some (s.withProducer t .idle, [.refused])
    | _ => none
  | .swap t =>
    match s.producers t with
    | .checked record priority pos _ =>
      if s.writePos = pos then
        some ({ s.withProducer t (.writing record pos s.claims 0) with
          writePos := pos + 1
          claims := s.claims + 1 }, [.claimed record])
      else some (s.withProducer t (.started record priority), [])
    | _ => none
  | .copy t =>
    match s.producers t with
    | .writing record pos seen k =>
      if k < 17 then
        some ((s.withSlot (slotOf pos)
            { s.slots (slotOf pos) with record := copyField record (s.slots (slotOf pos)).record k }).withProducer t
          (.writing record pos seen (k + 1)), [])
      else none
    | _ => none
  | .publish t =>
    match s.producers t with
    | .writing record pos seen k =>
      if k = 17 then
        some ((s.withSlot (slotOf pos) { s.slots (slotOf pos) with seq := pos + 1 }).withProducer t .idle,
          [.pushed seen record])
      else none
    | _ => none
  | .peek =>
    match s.consumer with
    | .idle => some ({ s with consumer := .peeking s.readPos [] }, [])
    | _ => none
  | .look =>
    match s.consumer with
    | .peeking read out =>
      if out.length < hidEpReportCount ∧
          (s.slots (slotOf (read + BitVec.ofNat 32 out.length))).seq = read + BitVec.ofNat 32 out.length + 1 then
        some ({ s with consumer := .copying read out (fun _ => 0) 0 }, [])
      else some ({ s with consumer := .peeked out }, [.batch out])
    | _ => none
  | .copyOut =>
    match s.consumer with
    | .copying read out part k =>
      let source := (s.slots (slotOf (read + BitVec.ofNat 32 out.length))).record
      if k < 17 then some ({ s with consumer := .copying read out (copyField source part k) (k + 1) }, [])
      else some ({ s with consumer := .peeking read (out ++ [part]) }, [])
    | _ => none
  | .submitted ok =>
    match s.consumer with
    | .peeked out => some ({ s with consumer := if ok then .consuming out else .idle }, [])
    | _ => none
  | .release =>
    match s.consumer with
    | .consuming [] => some ({ s with consumer := .idle }, [])
    | .consuming (record :: out) =>
      some ({ s.withSlot (slotOf s.readPos) { s.slots (slotOf s.readPos) with
          seq := s.readPos + BitVec.ofNat 32 maxReports } with consumer := .advancing s.readPos (record :: out) }, [])
    | _ => none
  | .advance =>
    match s.consumer with
    | .advancing read (record :: out) => some ({ s with
        readPos := read + 1
        consumer := .consuming out }, [.consumed record])
    | _ => none

/-- The ring after its initialization. -/
def hidFifoSystem : EventSystem HidFifo HidFifoOp HidFifoEvent where
  init := .init
  step := hidFifoStep

/-! ## Histories -/

/-- The records of the positions claimed, in order. -/
def claimedRecords (trace : List HidFifoEvent) : List HidRecord :=
  trace.filterMap fun e => match e with
    | .claimed record => some record
    | _ => none

/-- The records consumed, in order. -/
def consumedRecords (trace : List HidFifoEvent) : List HidRecord :=
  trace.filterMap fun e => match e with
    | .consumed record => some record
    | _ => none

/-- A producer's swap succeeds only if nobody claimed a position since it read the write position: it was not
overtaken by a positive multiple of 2^32 claims. -/
def SwapFresh (s : HidFifo) : HidFifoOp → Prop
  | .swap t => match s.producers t with
    | .checked _ _ pos seen => s.writePos = pos → s.claims = seen
    | _ => True
  | _ => True

/-- The positions whose pushes returned true, with their records. -/
def pushedRecords (trace : List HidFifoEvent) : List (ℕ × HidRecord) :=
  trace.filterMap fun e => match e with
    | .pushed position record => some (position, record)
    | _ => none

/-! ## The invariant -/

/-- The number of positions whose slots the consumer has released. -/
def released (consumed : List HidRecord) : Consumer → ℕ
  | .advancing _ _ => consumed.length + 1
  | _ => consumed.length

/-- A producer is writing the record of a position. -/
def Owned (s : HidFifo) (p : ℕ) : Prop := ∃ t record pos k, s.producers t = .writing record pos p k

/-- The slot of a position is published. -/
def Ready (claimed : List HidRecord) (s : HidFifo) (p : ℕ) : Prop :=
  (s.slots (p % maxReports)).seq = BitVec.ofNat 32 (p + 1) ∧
    claimed[p]? = some (s.slots (p % maxReports)).record

/-- What a producer knows. -/
def ProducerOk (claimed consumed : List HidRecord) (s : HidFifo) : Producer → Prop
  | .idle | .started _ _ => True
  | .loaded _ _ pos seen => pos = BitVec.ofNat 32 seen ∧ seen ≤ claimed.length
  | .checked _ _ pos seen => pos = BitVec.ofNat 32 seen ∧ seen ≤ claimed.length ∧
      (seen = claimed.length → claimed.length < consumed.length + maxReports)
  | .writing record pos seen k => pos = BitVec.ofNat 32 seen ∧ released consumed s.consumer ≤ seen ∧
      claimed[seen]? = some record ∧ (s.slots (seen % maxReports)).seq = BitVec.ofNat 32 seen ∧ k ≤ 17 ∧
        ∀ j : Fin 17, j.val < k → (s.slots (seen % maxReports)).record j = record j

/-- The records of published positions, from a position on. -/
def Held (claimed : List HidRecord) (s : HidFifo) (base : ℕ) (out : List HidRecord) : Prop :=
  ∀ i (hi : i < out.length), claimed[base + i]? = some (out.get ⟨i, hi⟩) ∧ Ready claimed s (base + i)

/-- What the consumer knows. -/
def ConsumerOk (claimed consumed : List HidRecord) (s : HidFifo) : Consumer → Prop
  | .idle => True
  | .peeking read out => read = BitVec.ofNat 32 consumed.length ∧ Held claimed s consumed.length out
  | .copying read out part k => read = BitVec.ofNat 32 consumed.length ∧ Held claimed s consumed.length out ∧
      Ready claimed s (consumed.length + out.length) ∧ k ≤ 17 ∧
        ∀ j : Fin 17, j.val < k →
          part j = (s.slots ((consumed.length + out.length) % maxReports)).record j
  | .peeked out | .consuming out => Held claimed s consumed.length out
  | .advancing read out => read = BitVec.ofNat 32 consumed.length ∧ ∃ record rest, out = record :: rest ∧
      claimed[consumed.length]? = some record ∧ Held claimed s (consumed.length + 1) rest

/-- What holds after every step. -/
structure FifoInvariant (claimed consumed : List HidRecord) (pushed : List (ℕ × HidRecord)) (s : HidFifo) :
    Prop where
  claims : s.claims = claimed.length
  writePos : s.writePos = BitVec.ofNat 32 claimed.length
  readPos : s.readPos = BitVec.ofNat 32 consumed.length
  consumed_initial : consumed <+: claimed
  released_le : released consumed s.consumer ≤ claimed.length
  room : claimed.length ≤ consumed.length + maxReports
  producers : ∀ t, ProducerOk claimed consumed s (s.producers t)
  distinct : ∀ t t' record record' pos pos' p k k', s.producers t = .writing record pos p k →
    s.producers t' = .writing record' pos' p k' → t = t'
  waiting : ∀ p, released consumed s.consumer ≤ p → p < claimed.length → Owned s p ∨ Ready claimed s p
  free : ∀ p, claimed.length ≤ p → p < released consumed s.consumer + maxReports →
    (s.slots (p % maxReports)).seq = BitVec.ofNat 32 p
  consumer : ConsumerOk claimed consumed s s.consumer
  published : ∀ p, p < claimed.length → Owned s p ∨ ∃ record, (p, record) ∈ pushed
  pushed_ready : ∀ p record, (p, record) ∈ pushed → claimed[p]? = some record ∧
    (p < released consumed s.consumer ∨ Ready claimed s p)

section Facts

variable {claimed consumed : List HidRecord} {pushed : List (ℕ × HidRecord)} {s : HidFifo} {t p q : ℕ}
  {record : HidRecord} {pos : BitVec 32} {seen k : ℕ}

theorem slotOf_ofNat (p : ℕ) : slotOf (BitVec.ofNat 32 p) = p % maxReports := by
  have hmask : (63 : BitVec 32).toNat = 2 ^ 6 - 1 := rfl
  rw [slotOf, BitVec.toNat_and, hmask, Nat.and_two_pow_sub_one_eq_mod, BitVec.toNat_ofNat]
  unfold maxReports
  omega

theorem ofNat_succ (p : ℕ) : BitVec.ofNat 32 (p + 1) = BitVec.ofNat 32 p + 1 := BitVec.ofNat_add _ _

theorem seq_ne (p : ℕ) : BitVec.ofNat 32 p ≠ BitVec.ofNat 32 (p + 1) := by
  intro h
  have hnat := congrArg BitVec.toNat h
  rw [BitVec.toNat_ofNat, BitVec.toNat_ofNat] at hnat
  omega

/-- Positions less than a lap apart have different slots. -/
theorem slot_ne (base : ℕ) (hp : base ≤ p) (hp' : p < base + maxReports) (hq : base ≤ q)
    (hq' : q < base + maxReports) (hne : p ≠ q) : p % maxReports ≠ q % maxReports := by
  unfold maxReports at *
  omega

theorem length_le_released (consumed : List HidRecord) (c : Consumer) : consumed.length ≤ released consumed c ∧
    released consumed c ≤ consumed.length + 1 := by
  cases c <;> simp [released]

theorem Ready.lt (h : Ready claimed s p) : p < claimed.length := (List.getElem?_eq_some_iff.mp h.2).1

/-- A position that is being written is not published. -/
theorem FifoInvariant.not_ready (h : FifoInvariant claimed consumed pushed s)
    (hwriting : s.producers t = .writing record pos p k) : ¬ Ready claimed s p := by
  intro hready
  have hproducer := h.producers t
  rw [hwriting] at hproducer
  exact seq_ne p (hproducer.2.2.2.1.symm.trans hready.1)

/-- Published slots stay so while their slot and the claims stay. -/
theorem Ready.frame {claimed' : List HidRecord} {s' : HidFifo} (h : Ready claimed s p)
    (hslot : s'.slots (p % maxReports) = s.slots (p % maxReports)) (hinitial : claimed <+: claimed') :
    Ready claimed' s' p := by
  refine ⟨by rw [hslot]; exact h.1, ?_⟩
  rw [hslot]
  obtain ⟨rest, rfl⟩ := hinitial
  rw [List.getElem?_append_left h.lt]
  exact h.2

theorem getElem?_extend {claimed' : List HidRecord} (h : claimed[p]? = some record) (hinitial : claimed <+: claimed') :
    claimed'[p]? = some record := by
  obtain ⟨rest, rfl⟩ := hinitial
  rw [List.getElem?_append_left (List.getElem?_eq_some_iff.mp h).1]
  exact h

theorem Held.frame {claimed' : List HidRecord} {s' : HidFifo} {base : ℕ} {out : List HidRecord}
    (h : Held claimed s base out)
    (hslot : ∀ i, i < out.length → Ready claimed s (base + i) →
      s'.slots ((base + i) % maxReports) = s.slots ((base + i) % maxReports))
    (hinitial : claimed <+: claimed') : Held claimed' s' base out := fun i hi =>
  ⟨getElem?_extend (h i hi).1 hinitial, (h i hi).2.frame (hslot i hi (h i hi).2) hinitial⟩

/-- What the consumer knows is about published slots and the positions it reads. -/
theorem ConsumerOk.frame {claimed' : List HidRecord} {s' : HidFifo} {c : Consumer}
    (h : ConsumerOk claimed consumed s c)
    (hslot : ∀ p, Ready claimed s p → released consumed c ≤ p → s'.slots (p % maxReports) = s.slots (p % maxReports))
    (hinitial : claimed <+: claimed') : ConsumerOk claimed' consumed s' c := by
  cases c with
  | idle => trivial
  | peeking read out =>
    exact ⟨h.1, h.2.frame (fun i _ hready => hslot _ hready (Nat.le_add_right _ _)) hinitial⟩
  | copying read out part k =>
    obtain ⟨hread, hheld, hready, hk, hpart⟩ := h
    have hsame := hslot _ hready (Nat.le_add_right _ _)
    refine ⟨hread, hheld.frame (fun i _ hready => hslot _ hready (Nat.le_add_right _ _)) hinitial,
      hready.frame hsame hinitial, hk, fun j hj => ?_⟩
    rw [hsame]
    exact hpart j hj
  | peeked out | consuming out =>
    exact Held.frame h (fun i _ hready => hslot _ hready (Nat.le_add_right _ _)) hinitial
  | advancing read out =>
    obtain ⟨hread, record, rest, hout, hrecord, hheld⟩ := h
    exact ⟨hread, record, rest, hout, getElem?_extend hrecord hinitial,
      hheld.frame (fun i _ hready => hslot _ hready (Nat.le_add_right _ _)) hinitial⟩

/-- A producer that moves without a slot leaves everything else as it was. -/
theorem FifoInvariant.move (h : FifoInvariant claimed consumed pushed s) {producer : Producer}
    (hbefore : ∀ record pos p k, s.producers t ≠ .writing record pos p k)
    (hafter : ∀ record pos p k, producer ≠ .writing record pos p k)
    (hok : ProducerOk claimed consumed s producer) :
    FifoInvariant claimed consumed pushed (s.withProducer t producer) := by
  have howned : ∀ t' record pos p k, (s.withProducer t producer).producers t' = .writing record pos p k ↔
      s.producers t' = .writing record pos p k := by
    intro t' record pos p k
    show update s.producers t producer t' = _ ↔ _
    by_cases ht : t' = t
    · subst ht
      rw [update_self]
      exact ⟨fun hw => absurd hw (hafter _ _ _ _), fun hw => absurd hw (hbefore _ _ _ _)⟩
    · rw [update_of_ne ht]
  have hownedIff : ∀ p, Owned (s.withProducer t producer) p ↔ Owned s p := fun p =>
    exists_congr fun t' => exists_congr fun record => exists_congr fun pos => exists_congr fun k =>
      howned t' record pos p k
  refine ⟨h.claims, h.writePos, h.readPos, h.consumed_initial, h.released_le, h.room, fun t' => ?_, ?_, ?_, h.free,
    h.consumer, ?_, h.pushed_ready⟩
  · show ProducerOk claimed consumed s (update s.producers t producer t')
    by_cases ht : t' = t
    · subst ht
      rw [update_self]
      exact hok
    · rw [update_of_ne ht]
      exact h.producers t'
  · intro t₁ t₂ record record' pos pos' p k k' h₁ h₂
    exact h.distinct _ _ _ _ _ _ _ _ _ ((howned _ _ _ _ _).mp h₁) ((howned _ _ _ _ _).mp h₂)
  · intro p hp hp'
    rw [hownedIff]
    exact h.waiting p hp hp'
  · intro p hp
    rw [hownedIff]
    exact h.published p hp

/-- The consumer's place, as far as the producers are concerned. -/
theorem ProducerOk.frame {claimed' consumed' : List HidRecord} {s' : HidFifo} {producer : Producer}
    (h : ProducerOk claimed consumed s producer)
    (hchecked : ∀ record priority pos seen, producer = .checked record priority pos seen → seen = claimed'.length →
      seen = claimed.length ∧ claimed'.length = claimed.length)
    (hlength : consumed.length ≤ consumed'.length)
    (hwriting : ∀ record pos seen k, producer = .writing record pos seen k →
      released consumed' s'.consumer ≤ seen ∧ s'.slots (seen % maxReports) = s.slots (seen % maxReports))
    (hinitial : claimed <+: claimed') : ProducerOk claimed' consumed' s' producer := by
  have hle := hinitial.length_le
  cases producer with
  | idle | started => trivial
  | loaded record priority pos seen => exact ⟨h.1, h.2.trans hle⟩
  | checked record priority pos seen =>
    refine ⟨h.1, h.2.1.trans hle, fun hseen => ?_⟩
    obtain ⟨hold, hsame⟩ := hchecked _ _ _ _ rfl hseen
    have hroom := h.2.2 hold
    omega
  | writing record pos seen k =>
    obtain ⟨hpos, -, hrecord, hseq, hk, hfields⟩ := h
    obtain ⟨hreleased, hslot⟩ := hwriting _ _ _ _ rfl
    refine ⟨hpos, hreleased, getElem?_extend hrecord hinitial, by rw [hslot]; exact hseq, hk, fun j hj => ?_⟩
    rw [hslot]
    exact hfields j hj

/-- A claim takes the next position, whose slot is free. -/
theorem FifoInvariant.swap (h : FifoInvariant claimed consumed pushed s) {priority : Bool}
    (hchecked : s.producers t = .checked record priority pos seen) (hpos : s.writePos = pos)
    (hfresh : s.claims = seen) :
    FifoInvariant (claimed ++ [record]) consumed pushed
      { s.withProducer t (.writing record pos s.claims 0) with
        writePos := pos + 1
        claims := s.claims + 1 } := by
  have hproducer := h.producers t
  rw [hchecked] at hproducer
  have hseen : seen = claimed.length := hfresh.symm.trans h.claims
  have hroom := hproducer.2.2 hseen
  have hreleased := length_le_released consumed s.consumer
  have hinitial : claimed <+: claimed ++ [record] := List.prefix_append _ _
  have hlength : (claimed ++ [record]).length = claimed.length + 1 := by simp
  have hnew : (claimed ++ [record])[claimed.length]? = some record := by simp
  -- no producer was writing the new position
  have hother : ∀ t' record' pos' p k', t' ≠ t → s.producers t' = .writing record' pos' p k' → p < claimed.length := by
    intro t' record' pos' p k' _ hw
    have hp := h.producers t'
    rw [hw] at hp
    exact (List.getElem?_eq_some_iff.mp hp.2.2.1).1
  have howned : ∀ p, Owned s p → Owned { s.withProducer t (.writing record pos s.claims 0) with
      writePos := pos + 1
      claims := s.claims + 1 } p := by
    rintro p ⟨t', record', pos', k', hw⟩
    have hne : t' ≠ t := by
      rintro rfl
      rw [hchecked] at hw
      cases hw
    exact ⟨t', record', pos', k', (update_of_ne hne _ _).trans hw⟩
  have hself : Owned { s.withProducer t (.writing record pos s.claims 0) with
      writePos := pos + 1
      claims := s.claims + 1 } claimed.length :=
    ⟨t, record, pos, 0, by rw [← h.claims]; exact update_self _ _ _⟩
  refine ⟨by rw [hlength, ← h.claims], ?_, h.readPos, h.consumed_initial.trans hinitial, ?_, ?_, fun t' => ?_, ?_, ?_,
    ?_, ?_, ?_, ?_⟩
  · show pos + 1 = _
    rw [← hpos, h.writePos, hlength, BitVec.ofNat_add]
    rfl
  · rw [hlength]
    exact Nat.le_succ_of_le h.released_le
  · rw [hlength]
    exact hroom
  · show ProducerOk _ _ _ (update s.producers t _ t')
    by_cases ht : t' = t
    · subst ht
      rw [update_self, h.claims]
      refine ⟨by rw [← hpos, h.writePos], h.released_le, hnew, h.free _ le_rfl (by show _ < _ ; omega), Nat.zero_le _,
        fun j hj => absurd hj (Nat.not_lt_zero _)⟩
    · rw [update_of_ne ht]
      refine (h.producers t').frame (fun record' priority' pos' seen' hp hseen' => ?_) le_rfl
        (fun record' pos' seen' k' hp => ⟨?_, rfl⟩) hinitial
      · have hp' := h.producers t'
        rw [hp] at hp'
        have hle := hp'.2.1
        omega
      · have hp' := h.producers t'
        rw [hp] at hp'
        exact hp'.2.1
  · intro t₁ t₂ record₁ record₂ pos₁ pos₂ p k₁ k₂ h₁ h₂
    replace h₁ : update s.producers t _ t₁ = _ := h₁
    replace h₂ : update s.producers t _ t₂ = _ := h₂
    by_cases ht₁ : t₁ = t <;> by_cases ht₂ : t₂ = t
    · rw [ht₁, ht₂]
    · rw [ht₁, update_self] at h₁
      rw [update_of_ne ht₂] at h₂
      have hlt := hother _ _ _ _ _ ht₂ h₂
      injection h₁ with _ _ hp
      rw [h.claims] at hp
      omega
    · rw [ht₂, update_self] at h₂
      rw [update_of_ne ht₁] at h₁
      have hlt := hother _ _ _ _ _ ht₁ h₁
      injection h₂ with _ _ hp
      rw [h.claims] at hp
      omega
    · rw [update_of_ne ht₁] at h₁
      rw [update_of_ne ht₂] at h₂
      exact h.distinct _ _ _ _ _ _ _ _ _ h₁ h₂
  · intro p hp hp'
    rw [hlength] at hp'
    rcases Nat.lt_succ_iff_lt_or_eq.mp hp' with hlt | rfl
    · rcases h.waiting p hp hlt with hold | hready
      · exact .inl (howned p hold)
      · exact .inr (hready.frame rfl hinitial)
    · exact .inl hself
  · intro p hp hp'
    rw [hlength] at hp
    exact h.free p (by omega) hp'
  · exact h.consumer.frame (fun _ _ _ => rfl) hinitial
  · intro p hp
    rw [hlength] at hp
    rcases Nat.lt_succ_iff_lt_or_eq.mp hp with hlt | rfl
    · exact (h.published p hlt).imp (howned p) id
    · exact .inl hself
  · intro p record' hp
    obtain ⟨hrecord, hplace⟩ := h.pushed_ready p record' hp
    exact ⟨getElem?_extend hrecord hinitial, hplace.imp id fun hready => hready.frame rfl hinitial⟩

/-- Writing into the slot of a position leaves the slots of the others within a lap. -/
theorem FifoInvariant.other_slot (h : FifoInvariant claimed consumed pushed s)
    (hwriting : s.producers t = .writing record pos p k) (slot : HidSlot) (producer : Producer)
    (hq : released consumed s.consumer ≤ q) (hq' : q < released consumed s.consumer + maxReports) (hne : q ≠ p) :
    ((s.withSlot (p % maxReports) slot).withProducer t producer).slots (q % maxReports) =
      s.slots (q % maxReports) := by
  have hproducer := h.producers t
  rw [hwriting] at hproducer
  have hlt := (List.getElem?_eq_some_iff.mp hproducer.2.2.1).1
  have hroom := h.room
  have hreleased := length_le_released consumed s.consumer
  exact update_of_ne (slot_ne _ hq hq' hproducer.2.1 (by omega) hne) _ _

/-- Copying a field of a record into its slot. -/
theorem FifoInvariant.copy (h : FifoInvariant claimed consumed pushed s)
    (hwriting : s.producers t = .writing record pos p k) (hk : k < 17) :
    FifoInvariant claimed consumed pushed ((s.withSlot (p % maxReports)
      { s.slots (p % maxReports) with
        record := copyField record (s.slots (p % maxReports)).record k }).withProducer t
          (.writing record pos p (k + 1))) := by
  have hproducer := h.producers t
  rw [hwriting] at hproducer
  obtain ⟨hpos, hreleased, hrecord, hseq, -, hfields⟩ := hproducer
  have hlt := (List.getElem?_eq_some_iff.mp hrecord).1
  have hroom := h.room
  have hbound := length_le_released consumed s.consumer
  set s' := (s.withSlot (p % maxReports) { s.slots (p % maxReports) with
    record := copyField record (s.slots (p % maxReports)).record k }).withProducer t
      (.writing record pos p (k + 1)) with hs'
  have hother : ∀ q, released consumed s.consumer ≤ q → q < released consumed s.consumer + maxReports → q ≠ p →
      s'.slots (q % maxReports) = s.slots (q % maxReports) := fun q hq hq' hne =>
    h.other_slot hwriting _ _ hq hq' hne
  have hslot : s'.slots (p % maxReports) = { s.slots (p % maxReports) with
      record := copyField record (s.slots (p % maxReports)).record k } := update_self _ _ _
  have hready : ∀ q, released consumed s.consumer ≤ q → Ready claimed s q →
      s'.slots (q % maxReports) = s.slots (q % maxReports) := by
    intro q hq hready
    have hqlt := hready.lt
    refine hother q hq (by omega) ?_
    rintro rfl
    exact h.not_ready hwriting hready
  have howned : ∀ q, Owned s q → Owned s' q := by
    rintro q ⟨t', record', pos', k', hw⟩
    by_cases ht : t' = t
    · subst ht
      rw [hwriting] at hw
      injection hw with _ _ hq
      exact ⟨t', record, pos, k + 1, by rw [← hq]; exact update_self _ _ _⟩
    · exact ⟨t', record', pos', k', (update_of_ne ht _ _).trans hw⟩
  refine ⟨h.claims, h.writePos, h.readPos, h.consumed_initial, h.released_le, h.room, fun t' => ?_, ?_, ?_, ?_, ?_,
    ?_, ?_⟩
  · show ProducerOk _ _ _ (update s.producers t _ t')
    by_cases ht : t' = t
    · subst ht
      rw [update_self]
      refine ⟨hpos, hreleased, hrecord, by rw [hslot]; exact hseq, hk, fun j hj => ?_⟩
      rw [hslot]
      show (if j.val = k then record j else _) = record j
      split
      · rfl
      · exact hfields j (by omega)
    · rw [update_of_ne ht]
      refine (h.producers t').frame (fun _ _ _ _ _ hseen => ⟨hseen, rfl⟩) le_rfl
        (fun record' pos' q k' hp => ?_) (List.prefix_refl _)
      have hp' := h.producers t'
      rw [hp] at hp'
      have hqlt := (List.getElem?_eq_some_iff.mp hp'.2.2.1).1
      refine ⟨hp'.2.1, hother q hp'.2.1 (by omega) ?_⟩
      rintro rfl
      exact ht (h.distinct _ _ _ _ _ _ _ _ _ hp hwriting)
  · intro t₁ t₂ record₁ record₂ pos₁ pos₂ q k₁ k₂ h₁ h₂
    replace h₁ : update s.producers t _ t₁ = _ := h₁
    replace h₂ : update s.producers t _ t₂ = _ := h₂
    by_cases ht₁ : t₁ = t <;> by_cases ht₂ : t₂ = t
    · rw [ht₁, ht₂]
    · rw [ht₁, update_self] at h₁
      rw [update_of_ne ht₂] at h₂
      injection h₁ with _ _ hp
      subst hp
      exact ht₁.trans (h.distinct _ _ _ _ _ _ _ _ _ hwriting h₂)
    · rw [ht₂, update_self] at h₂
      rw [update_of_ne ht₁] at h₁
      injection h₂ with _ _ hp
      subst hp
      exact (h.distinct _ _ _ _ _ _ _ _ _ h₁ hwriting).trans ht₂.symm
    · rw [update_of_ne ht₁] at h₁
      rw [update_of_ne ht₂] at h₂
      exact h.distinct _ _ _ _ _ _ _ _ _ h₁ h₂
  · intro q hq hq'
    rcases h.waiting q hq hq' with hold | hold
    · exact .inl (howned q hold)
    · exact .inr (hold.frame (hready q hq hold) (List.prefix_refl _))
  · intro q hq hq'
    have hreleased' : released consumed s.consumer ≤ q := h.released_le.trans hq
    rw [hother q hreleased' hq' (by omega)]
    exact h.free q hq hq'
  · exact h.consumer.frame (fun q hq hq' => hready q hq' hq) (List.prefix_refl _)
  · intro q hq
    exact (h.published q hq).imp (howned q) id
  · intro q record' hq
    obtain ⟨hrecord', hplace⟩ := h.pushed_ready q record' hq
    by_cases hlow : q < released consumed s.consumer
    · exact ⟨hrecord', .inl hlow⟩
    · have hqready := hplace.resolve_left hlow
      exact ⟨hrecord', .inr (hqready.frame (hready q (not_lt.mp hlow) hqready) (List.prefix_refl _))⟩

/-- Publishing a slot. -/
theorem FifoInvariant.publish (h : FifoInvariant claimed consumed pushed s)
    (hwriting : s.producers t = .writing record pos p 17) :
    FifoInvariant claimed consumed (pushed ++ [(p, record)]) ((s.withSlot (p % maxReports)
      { s.slots (p % maxReports) with seq := pos + 1 }).withProducer t .idle) := by
  have hproducer := h.producers t
  rw [hwriting] at hproducer
  obtain ⟨hpos, hreleased, hrecord, hseq, -, hfields⟩ := hproducer
  have hlt := (List.getElem?_eq_some_iff.mp hrecord).1
  have hroom := h.room
  have hbound := length_le_released consumed s.consumer
  set s' := (s.withSlot (p % maxReports) { s.slots (p % maxReports) with seq := pos + 1 }).withProducer t .idle
    with hs'
  have hother : ∀ q, released consumed s.consumer ≤ q → q < released consumed s.consumer + maxReports → q ≠ p →
      s'.slots (q % maxReports) = s.slots (q % maxReports) := fun q hq hq' hne =>
    h.other_slot hwriting _ _ hq hq' hne
  have hslot : s'.slots (p % maxReports) = { s.slots (p % maxReports) with seq := pos + 1 } := update_self _ _ _
  have hself : Ready claimed s' p := by
    refine ⟨?_, ?_⟩
    · rw [hslot]
      show pos + 1 = _
      rw [hpos, BitVec.ofNat_add]
      rfl
    · rw [hslot, hrecord]
      exact congrArg some (funext fun j => (hfields j j.isLt).symm)
  have hready : ∀ q, released consumed s.consumer ≤ q → Ready claimed s q →
      s'.slots (q % maxReports) = s.slots (q % maxReports) := by
    intro q hq hready
    have hqlt := hready.lt
    refine hother q hq (by omega) ?_
    rintro rfl
    exact h.not_ready hwriting hready
  have howned : ∀ q, q ≠ p → Owned s q → Owned s' q := by
    rintro q hne ⟨t', record', pos', k', hw⟩
    have ht : t' ≠ t := by
      rintro rfl
      rw [hwriting] at hw
      injection hw with _ _ hq
      exact hne hq.symm
    exact ⟨t', record', pos', k', (update_of_ne ht _ _).trans hw⟩
  refine ⟨h.claims, h.writePos, h.readPos, h.consumed_initial, h.released_le, h.room, fun t' => ?_, ?_, ?_, ?_, ?_,
    ?_, ?_⟩
  · show ProducerOk _ _ _ (update s.producers t _ t')
    by_cases ht : t' = t
    · subst ht
      rw [update_self]
      trivial
    · rw [update_of_ne ht]
      refine (h.producers t').frame (fun _ _ _ _ _ hseen => ⟨hseen, rfl⟩) le_rfl
        (fun record' pos' q k' hp => ?_) (List.prefix_refl _)
      have hp' := h.producers t'
      rw [hp] at hp'
      have hqlt := (List.getElem?_eq_some_iff.mp hp'.2.2.1).1
      refine ⟨hp'.2.1, hother q hp'.2.1 (by omega) ?_⟩
      rintro rfl
      exact ht (h.distinct _ _ _ _ _ _ _ _ _ hp hwriting)
  · intro t₁ t₂ record₁ record₂ pos₁ pos₂ q k₁ k₂ h₁ h₂
    replace h₁ : update s.producers t _ t₁ = _ := h₁
    replace h₂ : update s.producers t _ t₂ = _ := h₂
    by_cases ht₁ : t₁ = t
    · rw [ht₁, update_self] at h₁
      cases h₁
    by_cases ht₂ : t₂ = t
    · rw [ht₂, update_self] at h₂
      cases h₂
    rw [update_of_ne ht₁] at h₁
    rw [update_of_ne ht₂] at h₂
    exact h.distinct _ _ _ _ _ _ _ _ _ h₁ h₂
  · intro q hq hq'
    by_cases hne : q = p
    · exact .inr (hne ▸ hself)
    rcases h.waiting q hq hq' with hold | hold
    · exact .inl (howned q hne hold)
    · exact .inr (hold.frame (hready q hq hold) (List.prefix_refl _))
  · intro q hq hq'
    have hreleased' : released consumed s.consumer ≤ q := h.released_le.trans hq
    rw [hother q hreleased' hq' (by omega)]
    exact h.free q hq hq'
  · exact h.consumer.frame (fun q hq hq' => hready q hq' hq) (List.prefix_refl _)
  · intro q hq
    by_cases hne : q = p
    · exact .inr ⟨record, by rw [hne]; simp⟩
    · exact (h.published q hq).imp (howned q hne) fun ⟨record', hmem⟩ => ⟨record', List.mem_append_left _ hmem⟩
  · intro q record' hq
    rcases List.mem_append.mp hq with hold | hnew
    · obtain ⟨hrecord', hplace⟩ := h.pushed_ready q record' hold
      by_cases hlow : q < released consumed s.consumer
      · exact ⟨hrecord', .inl hlow⟩
      · have hqready := hplace.resolve_left hlow
        exact ⟨hrecord', .inr (hqready.frame (hready q (not_lt.mp hlow) hqready) (List.prefix_refl _))⟩
    · obtain ⟨rfl, rfl⟩ := Prod.mk.inj (List.mem_singleton.mp hnew)
      exact ⟨hrecord, .inr hself⟩

/-- A consumer that moves without a slot or a position leaves everything else as it was. -/
theorem FifoInvariant.consume (h : FifoInvariant claimed consumed pushed s) {c : Consumer}
    (hsame : released consumed c = released consumed s.consumer) (hok : ConsumerOk claimed consumed s c) :
    FifoInvariant claimed consumed pushed { s with consumer := c } := by
  refine ⟨h.claims, h.writePos, h.readPos, h.consumed_initial, by rw [hsame]; exact h.released_le, h.room,
    fun t => ?_, h.distinct, ?_, ?_, hok, h.published, ?_⟩
  · refine (h.producers t).frame (fun _ _ _ _ _ hseen => ⟨hseen, rfl⟩) le_rfl
      (fun record' pos' q k' hp => ⟨?_, rfl⟩) (List.prefix_refl _)
    have hp' := h.producers t
    rw [hp] at hp'
    rw [hsame]
    exact hp'.2.1
  · rw [hsame]
    exact h.waiting
  · rw [hsame]
    exact h.free
  · rw [hsame]
    exact h.pushed_ready

/-- A position whose sequence number the consumer finds is published. -/
theorem FifoInvariant.ready_of_seq (h : FifoInvariant claimed consumed pushed s)
    (hlow : released consumed s.consumer ≤ p) (hhigh : p < released consumed s.consumer + maxReports)
    (hseq : (s.slots (p % maxReports)).seq = BitVec.ofNat 32 (p + 1)) : Ready claimed s p := by
  by_cases hlt : p < claimed.length
  · rcases h.waiting p hlow hlt with ⟨t, record, pos, k, hw⟩ | hready
    · have hproducer := h.producers t
      rw [hw] at hproducer
      exact absurd (hproducer.2.2.2.1.symm.trans hseq) (seq_ne p)
    · exact hready
  · exact absurd ((h.free p (not_lt.mp hlt) hhigh).symm.trans hseq) (seq_ne p)

/-- A record of a batch is found published. -/
theorem FifoInvariant.look (h : FifoInvariant claimed consumed pushed s) {read : BitVec 32} {out : List HidRecord}
    (hc : s.consumer = .peeking read out) (hlength : out.length < hidEpReportCount)
    (hseq : (s.slots (slotOf (read + BitVec.ofNat 32 out.length))).seq = read + BitVec.ofNat 32 out.length + 1) :
    FifoInvariant claimed consumed pushed { s with consumer := .copying read out (fun _ => 0) 0 } := by
  have hok := h.consumer
  rw [hc] at hok
  obtain ⟨rfl, hheld⟩ := hok
  have hreleased : released consumed s.consumer = consumed.length := by rw [hc]; rfl
  rw [← BitVec.ofNat_add, slotOf_ofNat] at hseq
  refine h.consume (by rw [hc]; rfl) ⟨rfl, hheld, ?_, Nat.zero_le _, fun j hj => absurd hj (Nat.not_lt_zero _)⟩
  refine h.ready_of_seq (by omega) ?_ (hseq.trans (ofNat_succ _).symm)
  rw [hreleased]
  unfold hidEpReportCount at hlength
  unfold maxReports
  omega

/-- A field of a published record is copied out. -/
theorem FifoInvariant.copyOut (h : FifoInvariant claimed consumed pushed s) {read : BitVec 32}
    {out : List HidRecord} {part : HidRecord} (hc : s.consumer = .copying read out part k) (hk : k < 17) :
    FifoInvariant claimed consumed pushed { s with
      consumer := Consumer.copying read out
        (copyField (s.slots (slotOf (read + BitVec.ofNat 32 out.length))).record part k) (k + 1) } := by
  have hok := h.consumer
  rw [hc] at hok
  obtain ⟨rfl, hheld, hready, -, hpart⟩ := hok
  rw [← BitVec.ofNat_add, slotOf_ofNat]
  refine h.consume (by rw [hc]; rfl) ⟨rfl, hheld, hready, hk, fun j hj => ?_⟩
  show (if j.val = k then _ else _) = _
  split
  · rfl
  · exact hpart j (by omega)

/-- A record copied out completes the batch so far. -/
theorem FifoInvariant.appendOut (h : FifoInvariant claimed consumed pushed s) {read : BitVec 32}
    {out : List HidRecord} {part : HidRecord} (hc : s.consumer = .copying read out part k) (hk : ¬ k < 17) :
    FifoInvariant claimed consumed pushed { s with consumer := .peeking read (out ++ [part]) } := by
  have hok := h.consumer
  rw [hc] at hok
  obtain ⟨rfl, hheld, hready, -, hpart⟩ := hok
  refine h.consume (by rw [hc]; rfl) ⟨rfl, fun i hi => ?_⟩
  rw [List.length_append, List.length_singleton] at hi
  rcases Nat.lt_succ_iff_lt_or_eq.mp hi with hlt | rfl
  · have hget : (out ++ [part]).get ⟨i, by simp; omega⟩ = out.get ⟨i, hlt⟩ := by
      simp only [List.get_eq_getElem]
      exact List.getElem_append_left hlt
    rw [hget]
    exact hheld i hlt
  · have hget : (out ++ [part]).get ⟨out.length, by simp⟩ = part := by
      simp only [List.get_eq_getElem]
      exact List.getElem_concat_length rfl _
    rw [hget]
    refine ⟨?_, hready⟩
    rw [hready.2]
    exact congrArg some (funext fun j => (hpart j (by omega)).symm)

/-- The slot of a consumed record is released. -/
theorem FifoInvariant.release (h : FifoInvariant claimed consumed pushed s) {out : List HidRecord}
    (hc : s.consumer = .consuming (record :: out)) :
    FifoInvariant claimed consumed pushed { s.withSlot (slotOf s.readPos) { s.slots (slotOf s.readPos) with
      seq := s.readPos + BitVec.ofNat 32 maxReports } with consumer := .advancing s.readPos (record :: out) } := by
  have hok := h.consumer
  rw [hc] at hok
  have hheld : Held claimed s consumed.length (record :: out) := hok
  obtain ⟨hrecord, hready⟩ := hheld 0 (Nat.zero_lt_succ _)
  rw [Nat.add_zero] at hrecord hready
  have hreleased : released consumed s.consumer = consumed.length := by rw [hc]; rfl
  have hlt := hready.lt
  have hroom := h.room
  rw [h.readPos, slotOf_ofNat]
  set s' : HidFifo := { s.withSlot (consumed.length % maxReports) { s.slots (consumed.length % maxReports) with
    seq := BitVec.ofNat 32 consumed.length + BitVec.ofNat 32 maxReports } with
    consumer := .advancing (BitVec.ofNat 32 consumed.length) (record :: out) } with hs'
  have hreleased' : released consumed s'.consumer = consumed.length + 1 := rfl
  have hother : ∀ q, consumed.length < q → q < consumed.length + maxReports →
      s'.slots (q % maxReports) = s.slots (q % maxReports) := fun q hq hq' =>
    update_of_ne (slot_ne consumed.length hq.le hq' le_rfl (by unfold maxReports; omega) hq.ne') _ _
  refine ⟨h.claims, h.writePos, h.readPos, h.consumed_initial, hlt, hroom, fun t => ?_, h.distinct, ?_, ?_, ?_, h.published,
    ?_⟩
  · refine (h.producers t).frame (fun _ _ _ _ _ hseen => ⟨hseen, rfl⟩) le_rfl
      (fun record' pos' q k' hp => ?_) (List.prefix_refl _)
    have hp' := h.producers t
    rw [hp] at hp'
    have hqlt := (List.getElem?_eq_some_iff.mp hp'.2.2.1).1
    have hq : consumed.length < q := by
      refine lt_of_le_of_ne (hreleased ▸ hp'.2.1) ?_
      rintro rfl
      exact h.not_ready hp hready
    exact ⟨hq, hother q hq (by omega)⟩
  · intro q hq hq'
    rw [hreleased'] at hq
    rcases h.waiting q (by omega) hq' with hold | hold
    · exact .inl hold
    · exact .inr (hold.frame (hother q (by omega) (by omega)) (List.prefix_refl _))
  · intro q hq hq'
    rw [hreleased'] at hq'
    by_cases hlast : q = consumed.length + maxReports
    · rw [hlast, Nat.add_mod_right]
      show (update s.slots _ _ _).seq = _
      rw [update_self, ← BitVec.ofNat_add]
    · rw [hother q (by omega) (by omega)]
      exact h.free q hq (by omega)
  · refine ⟨rfl, record, out, rfl, hrecord, fun i hi => ?_⟩
    obtain ⟨hnext, hnextReady⟩ := hheld (i + 1) (Nat.succ_lt_succ hi)
    have hplace : consumed.length + 1 + i = consumed.length + (i + 1) := by omega
    rw [hplace]
    have hnextLt := hnextReady.lt
    exact ⟨hnext, hnextReady.frame (hother _ (by omega) (by omega)) (List.prefix_refl _)⟩
  · intro q record' hq
    obtain ⟨hrecord', hplace⟩ := h.pushed_ready q record' hq
    refine ⟨hrecord', ?_⟩
    rw [hreleased']
    by_cases hlow : q < consumed.length + 1
    · exact .inl hlow
    · have hqready := hplace.resolve_left (by omega)
      have hqlt := hqready.lt
      exact .inr (hqready.frame (hother q (by omega) (by omega)) (List.prefix_refl _))

/-- The read position moves over a released slot. -/
theorem FifoInvariant.advance (h : FifoInvariant claimed consumed pushed s) {read : BitVec 32}
    {out : List HidRecord} (hc : s.consumer = .advancing read (record :: out)) :
    FifoInvariant claimed (consumed ++ [record]) pushed { s with
      readPos := read + 1
      consumer := .consuming out } := by
  have hok := h.consumer
  rw [hc] at hok
  obtain ⟨rfl, record', rest, hout, hrecord, hheld⟩ := hok
  obtain ⟨rfl, rfl⟩ := List.cons.inj hout
  have hlength : (consumed ++ [record]).length = consumed.length + 1 := by simp
  have hreleased : released (consumed ++ [record]) (.consuming out) = released consumed s.consumer := by
    rw [hc]
    exact hlength
  have hlt := (List.getElem?_eq_some_iff.mp hrecord).1
  have hroom := h.room
  refine ⟨h.claims, h.writePos, ?_, ?_, by rw [hreleased]; exact h.released_le, by rw [hlength]; omega,
    fun t => ?_, h.distinct, ?_, ?_, ?_, h.published, ?_⟩
  · show BitVec.ofNat 32 consumed.length + 1 = _
    rw [hlength, BitVec.ofNat_add]
    rfl
  · obtain ⟨rest, hrest⟩ := h.consumed_initial
    have hnext : rest.head? = some record := by
      rw [← hrest, List.getElem?_append_right le_rfl, Nat.sub_self] at hrecord
      rw [List.head?_eq_getElem?]
      exact hrecord
    obtain ⟨tail, rfl⟩ := List.head?_eq_some_iff.mp hnext
    exact ⟨tail, by rw [← hrest, List.append_assoc, List.singleton_append]⟩
  · refine (h.producers t).frame (fun _ _ _ _ _ hseen => ⟨hseen, rfl⟩) (by rw [hlength]; omega)
      (fun record' pos' q k' hp => ⟨?_, rfl⟩) (List.prefix_refl _)
    have hp' := h.producers t
    rw [hp] at hp'
    rw [hreleased]
    exact hp'.2.1
  · rw [hreleased]
    exact h.waiting
  · rw [hreleased]
    exact h.free
  · show Held claimed s (consumed ++ [record]).length out
    rw [hlength]
    exact hheld
  · rw [hreleased]
    exact h.pushed_ready

end Facts

/-! ## Runs -/

section Runs

variable {trace es : List HidFifoEvent} {s s' : HidFifo} {op : HidFifoOp}

/-- The invariant at the end of a history. -/
def HistoryInvariant (trace : List HidFifoEvent) (s : HidFifo) : Prop :=
  FifoInvariant (claimedRecords trace) (consumedRecords trace) (pushedRecords trace) s

/-- A step that reports nothing about records. -/
theorem historyInvariant_quiet
    (hstep : FifoInvariant (claimedRecords trace) (consumedRecords trace) (pushedRecords trace) s')
    (hes : claimedRecords es = [] ∧ consumedRecords es = [] ∧ pushedRecords es = []) :
    HistoryInvariant (trace ++ es) s' := by
  unfold HistoryInvariant claimedRecords consumedRecords pushedRecords at *
  rw [List.filterMap_append, List.filterMap_append, List.filterMap_append, hes.1, hes.2.1, hes.2.2,
    List.append_nil, List.append_nil, List.append_nil]
  exact hstep

theorem historyInvariant_init : HistoryInvariant [] .init := by
  refine ⟨rfl, rfl, rfl, List.prefix_refl _, le_rfl, Nat.zero_le _, fun _ => trivial, ?_, ?_, ?_, trivial, ?_, ?_⟩
  · intro t t' record record' pos pos' p k k' hw
    cases hw
  · intro p _ hp
    exact absurd hp (Nat.not_lt_zero _)
  · intro p _ hp
    show BitVec.ofNat 32 (p % maxReports) = _
    rw [Nat.mod_eq_of_lt (by simpa [released, HidFifo.init, consumedRecords] using hp)]
  · intro p hp
    exact absurd hp (Nat.not_lt_zero _)
  · intro p record hp
    cases hp

/-- Every step keeps the invariant. -/
theorem HistoryInvariant.step (h : HistoryInvariant trace s) (hfresh : SwapFresh s op)
    (hstep : hidFifoStep s op = some (s', es)) : HistoryInvariant (trace ++ es) s' := by
  cases op with
  | push t record priority =>
    simp only [hidFifoStep] at hstep
    split at hstep
    case h_1 hidle =>
      obtain ⟨rfl, rfl⟩ := Prod.mk.inj (Option.some.inj hstep)
      refine historyInvariant_quiet (FifoInvariant.move h (fun _ _ _ _ hw => ?_) nofun trivial) ⟨rfl, rfl, rfl⟩
      rw [hidle] at hw
      cases hw
    case h_2 => cases hstep
  | load t =>
    simp only [hidFifoStep] at hstep
    split at hstep
    case h_1 record priority hstarted =>
      obtain ⟨rfl, rfl⟩ := Prod.mk.inj (Option.some.inj hstep)
      refine historyInvariant_quiet (FifoInvariant.move h (fun _ _ _ _ hw => ?_) nofun ⟨?_, ?_⟩) ⟨rfl, rfl, rfl⟩
      · rw [hstarted] at hw
        cases hw
      · rw [h.writePos, h.claims]
      · exact h.claims.le
    case h_2 => cases hstep
  | check t =>
    simp only [hidFifoStep] at hstep
    split at hstep
    case h_1 record priority pos seen hloaded =>
      have hbefore : ∀ record' pos' p k', s.producers t ≠ .writing record' pos' p k' := by
        intro record' pos' p k' hw
        rw [hloaded] at hw
        cases hw
      have hok := h.producers t
      rw [hloaded] at hok
      split at hstep
      case isTrue hroom =>
        obtain ⟨rfl, rfl⟩ := Prod.mk.inj (Option.some.inj hstep)
        refine historyInvariant_quiet (FifoInvariant.move h hbefore nofun ⟨hok.1, hok.2, fun hseen => ?_⟩) ⟨rfl, rfl, rfl⟩
        rw [HidFifo.hasRoom, Bool.and_eq_true, decide_eq_true_eq] at hroom
        have hcount := hroom.1
        have hconsumed := h.consumed_initial.length_le
        have hbound := h.room
        rw [hok.1, hseen, h.readPos, BitVec.toNat_sub, BitVec.toNat_ofNat, BitVec.toNat_ofNat] at hcount
        unfold maxReports at *
        omega
      case isFalse =>
        obtain ⟨rfl, rfl⟩ := Prod.mk.inj (Option.some.inj hstep)
        exact historyInvariant_quiet (FifoInvariant.move h hbefore nofun trivial) ⟨rfl, rfl, rfl⟩
    case h_2 => cases hstep
  | swap t =>
    simp only [hidFifoStep] at hstep
    split at hstep
    case h_1 record priority pos seen hchecked =>
      simp only [SwapFresh, hchecked] at hfresh
      split at hstep
      case isTrue hpos =>
        obtain ⟨rfl, rfl⟩ := Prod.mk.inj (Option.some.inj hstep)
        have hnext := FifoInvariant.swap h hchecked hpos (hfresh hpos)
        unfold HistoryInvariant claimedRecords consumedRecords pushedRecords at *
        rw [List.filterMap_append, List.filterMap_append, List.filterMap_append]
        simpa using hnext
      case isFalse =>
        obtain ⟨rfl, rfl⟩ := Prod.mk.inj (Option.some.inj hstep)
        refine historyInvariant_quiet (FifoInvariant.move h (fun _ _ _ _ hw => ?_) nofun trivial) ⟨rfl, rfl, rfl⟩
        rw [hchecked] at hw
        cases hw
    case h_2 => cases hstep
  | copy t =>
    simp only [hidFifoStep] at hstep
    split at hstep
    case h_1 record pos p k hwriting =>
      have hok := h.producers t
      rw [hwriting] at hok
      obtain ⟨rfl, -⟩ := hok
      rw [slotOf_ofNat] at hstep
      split at hstep
      case isTrue hk =>
        obtain ⟨rfl, rfl⟩ := Prod.mk.inj (Option.some.inj hstep)
        exact historyInvariant_quiet (FifoInvariant.copy h hwriting hk) ⟨rfl, rfl, rfl⟩
      case isFalse => cases hstep
    case h_2 => cases hstep
  | publish t =>
    simp only [hidFifoStep] at hstep
    split at hstep
    case h_1 record pos p k hwriting =>
      have hok := h.producers t
      rw [hwriting] at hok
      obtain ⟨rfl, -⟩ := hok
      rw [slotOf_ofNat] at hstep
      split at hstep
      case isTrue hk =>
        subst hk
        obtain ⟨rfl, rfl⟩ := Prod.mk.inj (Option.some.inj hstep)
        have hnext := FifoInvariant.publish h hwriting
        unfold HistoryInvariant claimedRecords consumedRecords pushedRecords at *
        rw [List.filterMap_append, List.filterMap_append, List.filterMap_append]
        simpa using hnext
      case isFalse => cases hstep
    case h_2 => cases hstep
  | peek =>
    simp only [hidFifoStep] at hstep
    split at hstep
    case h_1 hidle =>
      obtain ⟨rfl, rfl⟩ := Prod.mk.inj (Option.some.inj hstep)
      refine historyInvariant_quiet (FifoInvariant.consume h (by rw [hidle]; rfl) ⟨h.readPos, fun i hi => ?_⟩) ⟨rfl, rfl, rfl⟩
      exact absurd hi (Nat.not_lt_zero _)
    case h_2 => cases hstep
  | look =>
    simp only [hidFifoStep] at hstep
    split at hstep
    case h_1 read out hpeeking =>
      split at hstep
      case isTrue hfound =>
        obtain ⟨rfl, rfl⟩ := Prod.mk.inj (Option.some.inj hstep)
        exact historyInvariant_quiet (FifoInvariant.look h hpeeking hfound.1 hfound.2) ⟨rfl, rfl, rfl⟩
      case isFalse =>
        obtain ⟨rfl, rfl⟩ := Prod.mk.inj (Option.some.inj hstep)
        have hok := h.consumer
        rw [hpeeking] at hok
        exact historyInvariant_quiet (FifoInvariant.consume h (by rw [hpeeking]; rfl) hok.2) ⟨rfl, rfl, rfl⟩
    case h_2 => cases hstep
  | copyOut =>
    simp only [hidFifoStep] at hstep
    split at hstep
    case h_1 read out part k hcopying =>
      split at hstep
      case isTrue hk =>
        obtain ⟨rfl, rfl⟩ := Prod.mk.inj (Option.some.inj hstep)
        exact historyInvariant_quiet (FifoInvariant.copyOut h hcopying hk) ⟨rfl, rfl, rfl⟩
      case isFalse hk =>
        obtain ⟨rfl, rfl⟩ := Prod.mk.inj (Option.some.inj hstep)
        exact historyInvariant_quiet (FifoInvariant.appendOut h hcopying hk) ⟨rfl, rfl, rfl⟩
    case h_2 => cases hstep
  | submitted ok =>
    simp only [hidFifoStep] at hstep
    split at hstep
    case h_1 out hpeeked =>
      obtain ⟨rfl, rfl⟩ := Prod.mk.inj (Option.some.inj hstep)
      have hok := h.consumer
      rw [hpeeked] at hok
      cases ok with
      | true => exact historyInvariant_quiet (FifoInvariant.consume h (by rw [hpeeked]; rfl) hok) ⟨rfl, rfl, rfl⟩
      | false => exact historyInvariant_quiet (FifoInvariant.consume h (by rw [hpeeked]; rfl) trivial) ⟨rfl, rfl, rfl⟩
    case h_2 => cases hstep
  | release =>
    simp only [hidFifoStep] at hstep
    split at hstep
    case h_1 hdone =>
      obtain ⟨rfl, rfl⟩ := Prod.mk.inj (Option.some.inj hstep)
      exact historyInvariant_quiet (FifoInvariant.consume h (by rw [hdone]; rfl) trivial) ⟨rfl, rfl, rfl⟩
    case h_2 record out hconsuming =>
      obtain ⟨rfl, rfl⟩ := Prod.mk.inj (Option.some.inj hstep)
      exact historyInvariant_quiet (FifoInvariant.release h hconsuming) ⟨rfl, rfl, rfl⟩
    case h_3 => cases hstep
  | advance =>
    simp only [hidFifoStep] at hstep
    split at hstep
    case h_1 read record out hadvancing =>
      obtain ⟨rfl, rfl⟩ := Prod.mk.inj (Option.some.inj hstep)
      have hnext := FifoInvariant.advance h hadvancing
      unfold HistoryInvariant claimedRecords consumedRecords pushedRecords at *
      rw [List.filterMap_append, List.filterMap_append, List.filterMap_append]
      simpa using hnext
    case h_2 => cases hstep

theorem historyInvariant_run (h : hidFifoSystem.RunWhere SwapFresh trace s) : HistoryInvariant trace s := by
  induction h with
  | start => exact historyInvariant_init
  | snoc _ hfresh htaken ih => exact ih.step hfresh htaken

/-- Only the end of a push reports one. -/
theorem pushedRecords_eq_nil (hstep : hidFifoStep s op = some (s', es)) (hop : ∀ t, op ≠ .publish t) :
    pushedRecords es = [] := by
  cases op with
  | publish t => exact absurd rfl (hop t)
  | push | load | copy | peek | look | copyOut | submitted | check | swap | advance | release =>
    simp only [hidFifoStep] at hstep
    repeat' split at hstep
    all_goals cases hstep
    all_goals rfl

/-- A position is pushed once. -/
theorem pushed_nodup (h : hidFifoSystem.RunWhere SwapFresh trace s) :
    ((pushedRecords trace).map Prod.fst).Nodup := by
  induction h with
  | start => exact List.nodup_nil
  | @snoc trace s op s' es hrun hfresh htaken ih =>
    have hinv := historyInvariant_run hrun
    have hstep : hidFifoStep s op = some (s', es) := htaken
    have happend : pushedRecords (trace ++ es) = pushedRecords trace ++ pushedRecords es :=
      List.filterMap_append
    rw [happend, List.map_append]
    by_cases hpublish : ∃ t, op = .publish t
    · obtain ⟨t, rfl⟩ := hpublish
      simp only [hidFifoStep] at hstep
      split at hstep
      case h_1 record pos p k hwriting =>
        split at hstep
        case isTrue =>
          obtain ⟨-, rfl⟩ := Prod.mk.inj (Option.some.inj hstep)
          have hok := hinv.producers t
          rw [hwriting] at hok
          refine List.Nodup.append ih (List.nodup_singleton p) fun q hq hq' => ?_
          obtain rfl : q = p := List.mem_singleton.mp hq'
          obtain ⟨⟨q', record'⟩, hmem, rfl⟩ := List.mem_map.mp hq
          rcases (hinv.pushed_ready q' record' hmem).2 with hlow | hready
          · exact absurd hok.2.1 (not_le.mpr hlow)
          · exact hinv.not_ready hwriting hready
        case isFalse => cases hstep
      case h_2 => cases hstep
    · rw [pushedRecords_eq_nil hstep fun t ht => hpublish ⟨t, ht⟩]
      simpa using ih

end Runs

/-- The consumer gets the records in the order in which their positions were claimed, each of them pushed and none
twice; what was pushed is consumed or still in its slot; a batch is the next records; no producer writes a slot whose
previous record is unconsumed; and a failed submission changes nothing but the consumer's place. -/
theorem hid_fifo_correct {trace : List HidFifoEvent} {s : HidFifo}
    (h : hidFifoSystem.RunWhere SwapFresh trace s) :
    consumedRecords trace <+: claimedRecords trace ∧
    ((pushedRecords trace).map Prod.fst).Nodup ∧
    (∀ p, p < (consumedRecords trace).length → ∃ record, (consumedRecords trace)[p]? = some record ∧
      (p, record) ∈ pushedRecords trace) ∧
    (∀ p record, (p, record) ∈ pushedRecords trace → (claimedRecords trace)[p]? = some record ∧
      (p < released (consumedRecords trace) s.consumer ∨ Ready (claimedRecords trace) s p)) ∧
    (∀ out, s.consumer = .peeked out → out <+: (claimedRecords trace).drop (consumedRecords trace).length) ∧
    (∀ t record pos p k, s.producers t = .writing record pos p k →
      p < (consumedRecords trace).length + maxReports) ∧
    ∀ s' es, hidFifoStep s (.submitted false) = some (s', es) → s' = { s with consumer := .idle } ∧ es = [] := by
  have hinv := historyInvariant_run h
  have hreleased := length_le_released (consumedRecords trace) s.consumer
  refine ⟨hinv.consumed_initial, pushed_nodup h, fun p hp => ?_, fun p record hp => ?_, fun out hout => ?_,
    fun t record pos p k hwriting => ?_, fun s' es hstep => ?_⟩
  · have hlt := hp.trans_le hinv.consumed_initial.length_le
    rcases hinv.published p hlt with ⟨t, record, pos, k, hw⟩ | ⟨record, hmem⟩
    · have hok := hinv.producers t
      rw [hw] at hok
      exact absurd hok.2.1 (not_le.mpr (hp.trans_le hreleased.1))
    · refine ⟨record, ?_, hmem⟩
      have hclaimed := (hinv.pushed_ready p record hmem).1
      obtain ⟨rest, hrest⟩ := hinv.consumed_initial
      rw [← hrest, List.getElem?_append_left hp] at hclaimed
      exact hclaimed
  · exact hinv.pushed_ready p record hp
  · have hheld := hinv.consumer
    rw [hout] at hheld
    rw [List.prefix_iff_getElem?]
    intro i hi
    rw [List.getElem?_drop]
    exact (hheld i hi).1
  · have hok := hinv.producers t
    rw [hwriting] at hok
    have hlt := (List.getElem?_eq_some_iff.mp hok.2.2.1).1
    exact hlt.trans_le hinv.room
  · simp only [hidFifoStep] at hstep
    split at hstep
    case h_1 =>
      obtain ⟨rfl, rfl⟩ := Prod.mk.inj (Option.some.inj hstep)
      exact ⟨rfl, rfl⟩
    case h_2 => cases hstep

/-- The record of the examples. -/
def someRecord : HidRecord := fun _ => 0

instance (s : HidFifo) (op : HidFifoOp) : Decidable (SwapFresh s op) := by
  unfold SwapFresh
  split
  · split <;> infer_instance
  · exact instDecidableTrue

/-- A record is pushed, submitted and consumed. -/
def oneRecord : List HidFifoOp :=
  [HidFifoOp.push 0 someRecord true, .load 0, .check 0, .swap 0] ++ List.replicate 17 (HidFifoOp.copy 0) ++
    [HidFifoOp.publish 0, .peek, .look] ++ List.replicate 18 HidFifoOp.copyOut ++
    [HidFifoOp.look, .submitted true, .release, .advance, .release]

theorem hid_fifo_correct_one : ∃ trace s, hidFifoSystem.RunWhere SwapFresh trace s ∧
    (consumedRecords trace).length = 1 ∧ consumedRecords trace <+: claimedRecords trace ∧
      ∃ record, (consumedRecords trace)[0]? = some record ∧ (0, record) ∈ pushedRecords trace := by
  obtain ⟨trace, s, hrun, htest⟩ :=
    (hidFifoSystem.restrict fun s op => decide (SwapFresh s op)).exists_run_of_replay oneRecord
      (fun trace _ => decide ((consumedRecords trace).length = 1)) (by decide +kernel)
  have hfresh : hidFifoSystem.RunWhere SwapFresh trace s :=
    EventSystem.runWhere_of_restrict (fun s op hallowed => of_decide_eq_true hallowed) hrun
  have hone : (consumedRecords trace).length = 1 := of_decide_eq_true htest
  obtain ⟨hinitial, -, hpushed, -⟩ := hid_fifo_correct hfresh
  exact ⟨trace, s, hfresh, hone, hinitial, hpushed 0 (by omega)⟩

/-! ## A producer that is overtaken -/

section Overtaken

/-- Producer 0 waits before its swap of the first position, after `n` claims and `m` records consumed. -/
structure Stage (n m : ℕ) (trace : List HidFifoEvent) (s : HidFifo) : Prop where
  run : hidFifoSystem.RunWhere SwapFresh trace s
  claimed : (claimedRecords trace).length = n
  consumed : (consumedRecords trace).length = m
  waiting : s.producers 0 = .checked someRecord true 0 0
  others : ∀ t, t ≠ 0 → s.producers t = .idle
  consumer : s.consumer = .idle

variable {n m : ℕ} {trace : List HidFifoEvent} {s s' : HidFifo}

theorem runWhere_step {es : List HidFifoEvent} (h : hidFifoSystem.RunWhere SwapFresh trace s) (op : HidFifoOp)
    (hfresh : SwapFresh s op) (hstep : hidFifoStep s op = some (s', es)) :
    hidFifoSystem.RunWhere SwapFresh (trace ++ es) s' := h.snoc hfresh hstep

/-- A step that reports nothing. -/
theorem runWhere_silent (h : hidFifoSystem.RunWhere SwapFresh trace s) (op : HidFifoOp) (hfresh : SwapFresh s op)
    (hstep : hidFifoStep s op = some (s', [])) : hidFifoSystem.RunWhere SwapFresh trace s' := by
  simpa using runWhere_step h op hfresh hstep

/-- Producer 1 copies its record into the slot. -/
theorem copy_all (hrun : hidFifoSystem.RunWhere SwapFresh trace s) {record : HidRecord} {pos : BitVec 32} {p : ℕ}
    (hwriting : s.producers 1 = .writing record pos p 0) (k : ℕ) (hk : k ≤ 17) :
    ∃ s', hidFifoSystem.RunWhere SwapFresh trace s' ∧ s'.producers 1 = .writing record pos p k ∧
      (∀ t, t ≠ 1 → s'.producers t = s.producers t) ∧ s'.consumer = s.consumer := by
  induction k with
  | zero => exact ⟨s, hrun, hwriting, fun _ _ => rfl, rfl⟩
  | succ k ih =>
    obtain ⟨s', hrun', hwriting', hothers, hconsumer⟩ := ih (by omega)
    have hstep : hidFifoStep s' (.copy 1) = some ((s'.withSlot (slotOf pos) { s'.slots (slotOf pos) with
        record := copyField record (s'.slots (slotOf pos)).record k }).withProducer 1
          (.writing record pos p (k + 1)), []) := by
      simp only [hidFifoStep, hwriting']
      rw [if_pos (by omega)]
    have hrun'' := runWhere_silent hrun' (.copy 1) (show SwapFresh s' (.copy 1) from trivial) hstep
    refine ⟨_, hrun'', HidFifo.withProducer_self _ _ _, fun t ht => ?_, hconsumer⟩
    rw [HidFifo.withProducer_of_ne ht]
    exact hothers t ht

/-- Producer 1 pushes a record. -/
theorem Stage.push (h : Stage n m trace s) (hroom : n < m + maxReports) :
    ∃ trace' s', Stage (n + 1) m trace' s' := by
  have hinv := historyInvariant_run h.run
  have hle := hinv.consumed_initial.length_le
  rw [h.consumed, h.claimed] at hle
  have hidle : s.producers 1 = .idle := h.others 1 (by decide)
  -- to the swap
  have hroom' : HidFifo.hasRoom true s.writePos s.readPos = true := by
    rw [HidFifo.hasRoom, Bool.true_or, Bool.and_true, decide_eq_true_eq, hinv.writePos, hinv.readPos, h.consumed,
      h.claimed, BitVec.toNat_sub, BitVec.toNat_ofNat, BitVec.toNat_ofNat]
    unfold maxReports at *
    omega
  set s₁ := s.withProducer 1 (.started someRecord true) with hs₁
  have hproducer₁ : s₁.producers 1 = .started someRecord true := HidFifo.withProducer_self _ _ _
  have hrun₁ : hidFifoSystem.RunWhere SwapFresh trace s₁ := by
    refine runWhere_silent h.run (.push 1 someRecord true) (show SwapFresh s (.push 1 someRecord true) from trivial) ?_
    simp only [hidFifoStep, hidle, hs₁]
  set s₂ := s₁.withProducer 1 (.loaded someRecord true s.writePos s.claims) with hs₂
  have hproducer₂ : s₂.producers 1 = .loaded someRecord true s.writePos s.claims :=
    HidFifo.withProducer_self _ _ _
  have hrun₂ : hidFifoSystem.RunWhere SwapFresh trace s₂ := by
    refine runWhere_silent hrun₁ (.load 1) (show SwapFresh s₁ (.load 1) from trivial) ?_
    simp only [hidFifoStep, hproducer₁, hs₂]
    rfl
  set s₃ := s₂.withProducer 1 (.checked someRecord true s.writePos s.claims) with hs₃
  have hproducer₃ : s₃.producers 1 = .checked someRecord true s.writePos s.claims :=
    HidFifo.withProducer_self _ _ _
  have hrun₃ : hidFifoSystem.RunWhere SwapFresh trace s₃ := by
    refine runWhere_silent hrun₂ (.check 1) (show SwapFresh s₂ (.check 1) from trivial) ?_
    simp only [hidFifoStep, hproducer₂, hs₃]
    exact if_pos hroom'
  set s₄ : HidFifo := { s₃.withProducer 1 (.writing someRecord s.writePos s₃.claims 0) with
    writePos := s.writePos + 1
    claims := s₃.claims + 1 } with hs₄
  have hproducer₄ : s₄.producers 1 = .writing someRecord s.writePos s₃.claims 0 :=
    HidFifo.withProducer_self 1 (.writing someRecord s.writePos s₃.claims 0) s₃
  have hrun₄ : hidFifoSystem.RunWhere SwapFresh (trace ++ [HidFifoEvent.claimed someRecord]) s₄ := by
    refine runWhere_step hrun₃ (.swap 1) ?_ ?_
    · simp only [SwapFresh, hproducer₃]
      exact fun _ => rfl
    · simp only [hidFifoStep, hproducer₃, hs₄]
      exact if_pos rfl
  -- the record and its publication
  obtain ⟨s₅, hrun₅, hwriting₅, hothers₅, hconsumer₅⟩ := copy_all hrun₄ hproducer₄ 17 le_rfl
  set s₆ := s₅.withSlot (slotOf s.writePos) { s₅.slots (slotOf s.writePos) with seq := s.writePos + 1 }
  have hpublish : hidFifoStep s₅ (.publish 1) = some (s₆.withProducer 1 .idle, [.pushed s₃.claims someRecord]) := by
    simp only [hidFifoStep, hwriting₅]
    rfl
  have hothers : ∀ t, t ≠ 1 → (s₆.withProducer 1 .idle).producers t = s.producers t := by
    intro t ht
    rw [HidFifo.withProducer_of_ne ht]
    show s₅.producers t = _
    rw [hothers₅ t ht]
    show (s₃.withProducer 1 _).producers t = _
    rw [HidFifo.withProducer_of_ne ht, hs₃, HidFifo.withProducer_of_ne ht, hs₂, HidFifo.withProducer_of_ne ht, hs₁,
      HidFifo.withProducer_of_ne ht]
  refine ⟨trace ++ [HidFifoEvent.claimed someRecord] ++ [HidFifoEvent.pushed s₃.claims someRecord],
    s₆.withProducer 1 .idle,
    runWhere_step hrun₅ (.publish 1) (show SwapFresh s₅ (.publish 1) from trivial) hpublish, ?_, ?_, ?_,
    fun t ht => ?_, hconsumer₅.trans h.consumer⟩
  · rw [← h.claimed]
    simp [claimedRecords]
  · rw [← h.consumed]
    simp [consumedRecords]
  · exact (hothers 0 (by decide)).trans h.waiting
  · by_cases ht' : t = 1
    · rw [ht']
      exact HidFifo.withProducer_self _ _ _
    · exact (hothers t ht').trans (h.others t ht)

/-- The consumer copies a record out of its slot. -/
theorem copyOut_all (hrun : hidFifoSystem.RunWhere SwapFresh trace s) {read : BitVec 32}
    (hcopying : s.consumer = .copying read [] (fun _ => 0) 0) (k : ℕ) (hk : k ≤ 17) :
    ∃ part, hidFifoSystem.RunWhere SwapFresh trace { s with consumer := .copying read [] part k } := by
  induction k with
  | zero =>
    refine ⟨fun _ => 0, ?_⟩
    rw [← hcopying]
    exact hrun
  | succ k ih =>
    obtain ⟨part, hrun'⟩ := ih (by omega)
    refine ⟨copyField (s.slots (slotOf (read + BitVec.ofNat 32 0))).record part k,
      runWhere_silent hrun' .copyOut (show SwapFresh _ .copyOut from trivial) ?_⟩
    simp only [hidFifoStep]
    exact if_pos (by omega)

/-- The consumer takes the only record. -/
theorem Stage.consume (h : Stage (m + 1) m trace s) : ∃ trace' s', Stage (m + 1) (m + 1) trace' s' := by
  have hinv := historyInvariant_run h.run
  have hreleased : released (consumedRecords trace) s.consumer = m := by
    rw [h.consumer]
    exact h.consumed
  have hread : s.readPos = BitVec.ofNat 32 m := by rw [hinv.readPos, h.consumed]
  have hready : Ready (claimedRecords trace) s m := by
    rcases hinv.waiting m (by omega) (by rw [h.claimed]; omega) with ⟨t, record, pos, k, hwriting⟩ | hready
    · by_cases ht : t = 0
      · rw [ht, h.waiting] at hwriting
        cases hwriting
      · rw [h.others t ht] at hwriting
        cases hwriting
    · exact hready
  have hfree : (s.slots ((m + 1) % maxReports)).seq = BitVec.ofNat 32 (m + 1) := by
    refine hinv.free (m + 1) (by rw [h.claimed]) ?_
    rw [hreleased]
    unfold maxReports
    omega
  -- the record is found and copied
  have hrun₁ : hidFifoSystem.RunWhere SwapFresh trace { s with consumer := .peeking s.readPos [] } := by
    refine runWhere_silent h.run .peek (show SwapFresh s .peek from trivial) ?_
    simp only [hidFifoStep, h.consumer]
  have hrun₂ : hidFifoSystem.RunWhere SwapFresh trace
      { s with consumer := .copying s.readPos [] (fun _ => 0) 0 } := by
    refine runWhere_silent hrun₁ .look (show SwapFresh _ .look from trivial) ?_
    simp only [hidFifoStep]
    refine if_pos ⟨by decide, ?_⟩
    rw [hread, List.length_nil, BitVec.add_zero, slotOf_ofNat, hready.1, ofNat_succ]
  obtain ⟨part, hrun₃⟩ := copyOut_all hrun₂ rfl 17 le_rfl
  have hrun₄ : hidFifoSystem.RunWhere SwapFresh trace { s with consumer := .peeking s.readPos [part] } := by
    refine runWhere_silent hrun₃ .copyOut (show SwapFresh _ .copyOut from trivial) ?_
    simp only [hidFifoStep]
    exact if_neg (by decide)
  -- there is no second one
  have hrun₅ : hidFifoSystem.RunWhere SwapFresh (trace ++ [HidFifoEvent.batch [part]])
      { s with consumer := .peeked [part] } := by
    refine runWhere_step hrun₄ .look (show SwapFresh _ .look from trivial) ?_
    simp only [hidFifoStep]
    refine if_neg fun hmore => seq_ne (m + 1) ?_
    have hseq := hmore.2
    rw [hread, List.length_singleton, ← BitVec.ofNat_add, slotOf_ofNat, hfree] at hseq
    rw [hseq, ofNat_succ (m + 1)]
  have hrun₆ : hidFifoSystem.RunWhere SwapFresh (trace ++ [HidFifoEvent.batch [part]])
      { s with consumer := .consuming [part] } := by
    refine runWhere_silent hrun₅ (.submitted true) (show SwapFresh _ (.submitted true) from trivial) ?_
    simp only [hidFifoStep]
    rfl
  -- it is consumed
  set s₇ : HidFifo := { s.withSlot (slotOf s.readPos) { s.slots (slotOf s.readPos) with
    seq := s.readPos + BitVec.ofNat 32 maxReports } with consumer := .advancing s.readPos [part] }
  have hrun₇ : hidFifoSystem.RunWhere SwapFresh (trace ++ [HidFifoEvent.batch [part]]) s₇ :=
    runWhere_silent hrun₆ .release (show SwapFresh _ .release from trivial) rfl
  have hrun₈ : hidFifoSystem.RunWhere SwapFresh (trace ++ [HidFifoEvent.batch [part]] ++ [HidFifoEvent.consumed part])
      { s₇ with
        readPos := s.readPos + 1
        consumer := .consuming [] } :=
    runWhere_step hrun₇ .advance (show SwapFresh _ .advance from trivial) rfl
  refine ⟨_, _, runWhere_silent hrun₈ .release (show SwapFresh _ .release from trivial) rfl, ?_, ?_,
    h.waiting, h.others, rfl⟩
  · rw [← h.claimed]
    simp [claimedRecords]
  · rw [← h.consumed]
    simp [consumedRecords]

/-- Any number of records pass while producer 0 waits. -/
theorem exists_stage (n : ℕ) : ∃ trace s, Stage n n trace s := by
  induction n with
  | zero =>
    set s₁ := HidFifo.init.withProducer 0 (.started someRecord true)
    set s₂ := s₁.withProducer 0 (.loaded someRecord true 0 0)
    set s₃ := s₂.withProducer 0 (.checked someRecord true 0 0)
    have hrun₁ : hidFifoSystem.RunWhere SwapFresh [] s₁ :=
      runWhere_silent .start (.push 0 someRecord true) (show SwapFresh _ (.push 0 someRecord true) from trivial) rfl
    have hrun₂ : hidFifoSystem.RunWhere SwapFresh [] s₂ :=
      runWhere_silent hrun₁ (.load 0) (show SwapFresh _ (.load 0) from trivial) rfl
    have hrun₃ : hidFifoSystem.RunWhere SwapFresh [] s₃ := by
      refine runWhere_silent hrun₂ (.check 0) (show SwapFresh _ (.check 0) from trivial) ?_
      exact if_pos (show HidFifo.hasRoom true 0 0 = true by decide)
    refine ⟨[], s₃, hrun₃, rfl, rfl, rfl, fun t ht => ?_, rfl⟩
    rw [HidFifo.withProducer_of_ne ht, HidFifo.withProducer_of_ne ht, HidFifo.withProducer_of_ne ht]
    rfl
  | succ n ih =>
    obtain ⟨trace, s, h⟩ := ih
    obtain ⟨trace', s', h'⟩ := h.push (by unfold maxReports; omega)
    exact h'.consume

/-- The ring is full of further ones. -/
theorem exists_stage_full (n k : ℕ) (hk : k ≤ maxReports) : ∃ trace s, Stage (n + k) n trace s := by
  induction k with
  | zero => exact exists_stage n
  | succ k ih =>
    obtain ⟨trace, s, h⟩ := ih (by omega)
    exact h.push (by omega)

/-- When 2^32 positions were claimed since a producer read the first one, its swap succeeds though the ring is full,
and it writes the slot of a record that is not consumed. -/
theorem overtaken_producer_overwrites : ∃ trace s, hidFifoSystem.Run trace s ∧ ∃ t record pos p,
    s.producers t = .writing record pos p 0 ∧ slotOf pos = (consumedRecords trace).length % maxReports ∧
      (consumedRecords trace).length + maxReports < (claimedRecords trace).length := by
  obtain ⟨trace, s, h⟩ := exists_stage_full (2 ^ 32 - maxReports) maxReports le_rfl
  have hinv := historyInvariant_run h.run
  have hwrapped : s.writePos = 0 := by
    rw [hinv.writePos, h.claimed]
    rfl
  have hswap : hidFifoSystem.step s (.swap 0) = some ({ s.withProducer 0 (.writing someRecord 0 s.claims 0) with
      writePos := 0 + 1
      claims := s.claims + 1 }, [.claimed someRecord]) := by
    show hidFifoStep s (.swap 0) = _
    simp only [hidFifoStep, h.waiting]
    exact if_pos hwrapped
  refine ⟨_, _, h.run.run.snoc trivial hswap, 0, someRecord, 0, s.claims,
    HidFifo.withProducer_self 0 (.writing someRecord 0 s.claims 0) s, ?_, ?_⟩
  · have hconsumed : (consumedRecords (trace ++ [HidFifoEvent.claimed someRecord])).length = 2 ^ 32 - maxReports := by
      rw [← h.consumed]
      simp [consumedRecords]
    rw [hconsumed]
    rfl
  · have hconsumed : (consumedRecords (trace ++ [HidFifoEvent.claimed someRecord])).length = 2 ^ 32 - maxReports := by
      rw [← h.consumed]
      simp [consumedRecords]
    have hclaimed : (claimedRecords (trace ++ [HidFifoEvent.claimed someRecord])).length = 2 ^ 32 + 1 := by
      have hlength := h.claimed
      unfold maxReports at hlength
      simp only [claimedRecords, List.filterMap_append, List.length_append] at *
      simp [hlength]
    rw [hconsumed, hclaimed]
    decide

end Overtaken

end Hid

end SlimeReceiver
