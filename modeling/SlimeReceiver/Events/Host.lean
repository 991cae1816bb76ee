import SlimeReceiver.Events.Cache

/-! # The host side of the event service

* **`Subscription.control`** — `tracker_events_control`; **`usbReset`**, **`retire`** — the other
  operations that change the subscription.
* **`Subscription.hidValid`** — `tracker_events_hid_valid`.
* **`HidFifo`** — the ring of `hid.c`, as the list of its slots from `hid_fifo_read_pos` to
  `hid_fifo_write_pos`. A producer claims a slot and publishes its record later; the consumer sees
  records up to the first slot that is not published, and removes them after they were sent. -/

namespace SlimeReceiver.Events

/-! ## Control requests -/

/-- `TRACKER_EVENT_MAX_REPEATS`. -/
def maxRepeats : BitVec 8 := 3

/-- `TRACKER_EVENT_SPACING_MS`. -/
def spacingMs : ℕ := 100

/-- `TRACKER_EVENT_CAL_HEARTBEAT_MS`. -/
def calHeartbeatMs : ℕ := 2000

/-- The error codes of `tracker_events_control`. -/
inductive ControlError
  | einval
  | enotsup
  | enotconn
  | enoent
  deriving DecidableEq, Repr

namespace Subscription

/-- The combination of action, filter and mask is no request. -/
def malformed (action filter mask : BitVec 8) : Bool :=
  decide (3 < action) || (decide (16 ≤ filter) && filter != 255) ||
    if action = 1 ∨ action = 2 then mask == 0 || decide (31 < mask) else mask != 0

/-- The effect of a request that is granted. -/
def granted (action filter mask : BitVec 8) (now : BitVec 32) (s : Subscription) : Subscription :=
  if action = 1 then
    { s with
      subscriptionGeneration := nextGeneration s.subscriptionGeneration
      subscriptionFilter := filter
      subscriptionMask := mask
      subscribed := true
      leaseStarted := now }
  else if action = 2 then { s with leaseStarted := now }
  else if action = 3 then
    { s with
      subscribed := false
      subscriptionGeneration := nextGeneration s.subscriptionGeneration }
  else s

/-- The twelve bytes of the answer. -/
def answer (now : BitVec 32) (s : Subscription) : List (BitVec 8) :=
  [trackerEventVersion, 0x3f, maxRepeats, BitVec.ofNat 8 (spacingMs / 10)] ++
    trackerEventPut16 (BitVec.ofNat 16 calHeartbeatMs) ++
    trackerEventPut16 (BitVec.ofNat 16 calSilenceMs) ++
    trackerEventPut16 (BitVec.ofNat 16 leaseMs) ++
    [s.subscriptionFilter, (if s.leaseActive now then 1 else 0) ||| s.subscriptionMask <<< 1]

/-- `tracker_events_control`. -/
def control (args : List (BitVec 8)) (generation now : BitVec 32) (s : Subscription) :
    Except ControlError (Subscription × List (BitVec 8)) :=
  let action := byteAt args 1
  let filter := byteAt args 2
  let mask := byteAt args 3
  if args.length < 4 then .error .einval
  else if byteAt args 0 ≠ trackerEventVersion then .error .enotsup
  else if malformed action filter mask then .error .einval
  else if (args.drop 4).any (· != 0) then .error .einval
  else if generation ≠ s.usbGeneration then .error .enotconn
  else if action = 2 ∧
      (s.leaseActive now = false ∨ filter ≠ s.subscriptionFilter ∨ mask ≠ s.subscriptionMask) then
    .error .enoent
  else .ok (s.granted action filter mask now, (s.granted action filter mask now).answer now)

/-- `tracker_events_usb_reset`. -/
def usbReset (s : Subscription) : Subscription :=
  { s with
    usbGeneration := nextGeneration s.usbGeneration
    subscriptionGeneration := nextGeneration s.subscriptionGeneration
    subscribed := false }

/-- What `tracker_events_pairing_invalidate` does to the subscription. -/
def retire (s : Subscription) : Subscription :=
  { s with subscriptionGeneration := nextGeneration s.subscriptionGeneration }

/-- `tracker_events_hid_valid`. -/
def hidValid (record : List (BitVec 8)) (generation now : BitVec 32) (s : Subscription) : Bool :=
  byteAt record 0 == 251 && byteAt record 1 == 0 &&
    (byteAt record 2 == hidOpTrackerEvent || byteAt record 2 == hidOpTrackerObservation) &&
    generation == s.subscriptionGeneration && s.matchesRecord (byteAt record 4) (byteAt record 13) now

end Subscription

/-! ## The HID FIFO -/

/-- What a producer puts in: 16 bytes, and the generation of an event record or 0. -/
structure HidRecord where
  data : List (BitVec 8)
  subscriptionGeneration : BitVec 32
  deriving DecidableEq, Repr

/-- A slot between the two positions: claimed by the owner of the events or by another producer, and
then published. -/
inductive FifoSlot
  | claimed (owner : Bool)
  | published (record : HidRecord)
  deriving DecidableEq, Repr

/-- The ring. A position is a ticket. -/
structure HidFifo where
  readPos : ℕ
  slots : List FifoSlot
  deriving DecidableEq, Repr

/-- `MAX_REPORTS`. -/
def maxReports : ℕ := 64

/-- `HID_FIFO_PRIORITY_RESERVE`. -/
def fifoPriorityReserve : ℕ := 2

/-- `HID_EP_REPORT_COUNT`. -/
def epReportCount : ℕ := 4

/-- `hid_fifo_is_priority`. -/
def hidFifoIsPriority (type : BitVec 8) : Bool :=
  type == 251 || (decide (0xF0 ≤ type) && decide (type ≤ 0xF7))

namespace HidFifo

/-- `hid_fifo_write_pos`. -/
def writePos (f : HidFifo) : ℕ := f.readPos + f.slots.length

/-- The claiming half of `hid_fifo_try_push`. -/
def claim (owner priority : Bool) (f : HidFifo) : Option HidFifo :=
  let freeSlots := maxReports - f.slots.length
  if maxReports ≤ f.slots.length then none
  else if priority = false ∧ freeSlots ≤ fifoPriorityReserve then none
  else some { f with slots := f.slots ++ [FifoSlot.claimed owner] }

/-- The slot with a ticket. -/
def slotAt (ticket : ℕ) (f : HidFifo) : Option FifoSlot :=
  if ticket < f.readPos then none else f.slots[ticket - f.readPos]?

/-- The publishing half of `hid_fifo_try_push`. -/
def publish (ticket : ℕ) (record : HidRecord) (f : HidFifo) : HidFifo :=
  { f with slots := f.slots.set (ticket - f.readPos) (.published record) }

/-- The records at the front, with their tickets, up to the first that is not published. -/
def publishedFrom : ℕ → List FifoSlot → List (ℕ × HidRecord)
  | ticket, .published record :: slots => (ticket, record) :: publishedFrom (ticket + 1) slots
  | _, _ => []

/-- `hid_fifo_peek_batch`. -/
def peekBatch (f : HidFifo) : List (ℕ × HidRecord) :=
  (publishedFrom f.readPos f.slots).take epReportCount

/-- `hid_fifo_consume`. -/
def consume (n : ℕ) (f : HidFifo) : HidFifo :=
  { readPos := f.readPos + n
    slots := f.slots.drop n }

/-! ### Slots by ticket -/

section Tickets

variable {f f' : HidFifo}

theorem readPos_le_of_slotAt {t : ℕ} {slot : FifoSlot} (h : f.slotAt t = some slot) :
    f.readPos ≤ t := by
  unfold slotAt at h
  split at h
  case isTrue => cases h
  case isFalse hle => exact not_lt.mp hle

/-- A claim adds an unpublished slot behind the others. -/
theorem slotAt_claim {owner priority : Bool} (h : f.claim owner priority = some f') :
    f'.readPos = f.readPos ∧ f'.slotAt f.writePos = some (.claimed owner) ∧
      ∀ t, t ≠ f.writePos → f'.slotAt t = f.slotAt t := by
  unfold claim at h
  simp only [] at h
  split at h
  · cases h
  · split at h
    · cases h
    · obtain rfl := Option.some.inj h
      refine ⟨rfl, ?_, fun t hne => ?_⟩
      · simp [slotAt, writePos]
      · unfold slotAt
        simp only []
        split
        · rfl
        · rw [List.getElem?_append]
          split
          · rfl
          · rename_i hge hpast
            rw [writePos] at hne
            rw [List.getElem?_eq_none (by simp; omega), List.getElem?_eq_none (by omega)]

/-- A record is published in its own slot. -/
theorem slotAt_publish {ticket : ℕ} {slot : FifoSlot} (h : f.slotAt ticket = some slot)
    (record : HidRecord) : (f.publish ticket record).slotAt ticket = some (.published record) ∧
      ∀ t, t ≠ ticket → (f.publish ticket record).slotAt t = f.slotAt t := by
  have hle := readPos_le_of_slotAt h
  have hinside : ticket - f.readPos < f.slots.length := by
    rw [slotAt, if_neg (not_lt.mpr hle)] at h
    exact (List.getElem?_eq_some_iff.mp h).1
  refine ⟨?_, fun t hne => ?_⟩
  · show (if ticket < f.readPos then none else _) = _
    rw [if_neg (not_lt.mpr hle)]
    exact List.getElem?_set_self hinside
  · show (if t < f.readPos then none
      else (f.slots.set (ticket - f.readPos) (.published record))[t - f.readPos]?) = f.slotAt t
    unfold slotAt
    split
    · rfl
    · rw [List.getElem?_set_ne (by omega)]

/-- Consuming removes the slots at the front. -/
theorem slotAt_consume (n t : ℕ) (f : HidFifo) :
    (f.consume n).slotAt t = if t < f.readPos + n then none else f.slotAt t := by
  show (if t < f.readPos + n then none else (f.slots.drop n)[t - (f.readPos + n)]?) = _
  split
  · rfl
  · rw [slotAt, if_neg (by omega), List.getElem?_drop]
    congr 1
    omega

theorem getElem?_publishedFrom {slots : List FifoSlot} {ticket k t : ℕ} {record : HidRecord}
    (h : (publishedFrom ticket slots)[k]? = some (t, record)) :
    t = ticket + k ∧ slots[k]? = some (.published record) := by
  induction slots generalizing ticket k with
  | nil => simp [publishedFrom] at h
  | cons slot slots ih =>
    cases slot with
    | claimed owner => simp [publishedFrom] at h
    | published first =>
      rw [publishedFrom] at h
      cases k with
      | zero =>
        obtain ⟨rfl, rfl⟩ := Prod.mk.inj (Option.some.inj h)
        exact ⟨rfl, rfl⟩
      | succ k =>
        obtain ⟨ht, hslot⟩ := ih h
        exact ⟨by omega, hslot⟩

/-- The batch holds published records in the order of their tickets. -/
theorem slotAt_peekBatch {k t : ℕ} {record : HidRecord} (h : f.peekBatch[k]? = some (t, record)) :
    t = f.readPos + k ∧ f.slotAt t = some (.published record) := by
  rw [peekBatch, List.getElem?_take] at h
  split at h
  case isFalse => cases h
  case isTrue =>
    obtain ⟨rfl, hslot⟩ := getElem?_publishedFrom h
    refine ⟨rfl, ?_⟩
    rw [slotAt, if_neg (by omega), Nat.add_sub_cancel_left]
    exact hslot

end Tickets

end HidFifo

end SlimeReceiver.Events
