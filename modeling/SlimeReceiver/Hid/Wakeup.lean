import SlimeReceiver.Hid.Fifo

/-! # Who wakes the sender

`send_report` and what schedules it, over the ring of `Hid.Fifo`. Producers come in between any two accesses.
`send_report` runs in the cooperative system work queue (`thread_priority.h`) and the callbacks in the cooperative
thread of the USB stack, so a handler is not preempted by another one; inside `hid_device_submit_report` the sender
may wait, and there the callbacks run.

* **`Wakeup`**, **`wakeupSystem`** — the flags, the work item and the handlers over the ring.
* **`Alive`** — somebody is bound to schedule the sender.
* **`WakeupInvariant`** — a published head is known to somebody.
* **`wakeup_not_lost`** — with all handlers at rest, a published head has the sender scheduled or a report under
  way. -/

namespace SlimeReceiver

open Function (update update_self update_of_ne)

namespace Hid

/-! ## The handlers -/

/-- Where `send_report` is. -/
inductive Sender
  | idle
  /-- Before `receiver_usb_is_enabled`, `receiver_usb_is_configured`, `hid_ready` and the look at the FIFO. -/
  | entered
  | enabledSeen
  | configuredSeen
  | looking
  /-- Before `atomic_test_and_set_bit`. -/
  | claiming
  /-- In `hid_fifo_peek_batch`. -/
  | peeking
  /-- In `hid_device_submit_report`, before and after the controller takes the report. -/
  | submitting
  | accepted
  /-- Refused: before `k_work_schedule`, and before `atomic_clear_bit`. -/
  | refused
  | releasing
  /-- In `hid_fifo_consume`. -/
  | consuming
deriving DecidableEq

/-- Where a callback is. -/
inductive Callback
  | idle
  /-- `int_in_ready_cb`: before `atomic_test_and_clear_bit`, the look at the FIFO and `k_work_reschedule`. -/
  | completing
  | checking
  | rescheduling
  /-- Ready or configured: before `k_work_schedule`. -/
  | waking
  /-- Not configured: before `hid_ready` is cleared. -/
  | unreadying
  /-- Not configured or not ready: before `atomic_clear_bit`. -/
  | clearing
deriving DecidableEq

/-- The ring, the flags and the handlers. `scheduled` is a pending `report_send`; `outstanding` counts the reports the
controller has; `enqueuing` marks the producers between their push and their `k_work_schedule`. -/
structure Wakeup where
  ring : HidFifo
  usbEnabled : Bool
  usbConfigured : Bool
  hidReady : Bool
  hidEpInBusy : Bool
  scheduled : Bool
  outstanding : ℕ
  enqueuing : ℕ → Bool
  sender : Sender
  callback : Callback

/-- At boot. -/
def Wakeup.boot : Wakeup where
  ring := .init
  usbEnabled := false
  usbConfigured := false
  hidReady := false
  hidEpInBusy := false
  scheduled := false
  outstanding := 0
  enqueuing _ := false
  sender := .idle
  callback := .idle

/-- The steps. -/
inductive WakeupOp
  /-- A step of `hid_fifo_try_push`. -/
  | produce (op : HidFifoOp)
  /-- The `k_work_schedule` of `hid_enqueue_packet`. -/
  | enqueued (t : ℕ)
  /-- The work queue starts `report_send`. -/
  | run
  /-- `send_report` goes on; `due` is whether a registration is, `taken` whether the controller takes the report. -/
  | send (due taken : Bool)
  /-- A report is completed or cancelled. -/
  | completion
  /-- `iface_ready_cb`; the controller drops some reports when the interface goes. -/
  | ifaceReady (ready : Bool) (dropped : ℕ)
  /-- `receiver_usb_set_configured`. -/
  | configured (configured : Bool) (dropped : ℕ)
  /-- The callback goes on. -/
  | callback
  /-- The registration timer, or `on_idle_cb`. -/
  | wake
  /-- `usb_enable_device` has reset the configuration; and the removal of VBUS. -/
  | enable
  | disable

/-- The producer a step of the ring is of. -/
def producerOf : HidFifoOp → Option ℕ
  | .push t _ _ | .load t | .check t | .swap t | .copy t | .publish t => some t
  | _ => none

/-- The step publishes a record. -/
def publishes : HidFifoOp → Bool
  | .publish _ => true
  | _ => false

namespace Wakeup

/-- `!hid_fifo_is_empty()`: the record at the head is published. -/
def headPublished (s : Wakeup) : Bool := (s.ring.slots (slotOf s.ring.readPos)).seq == s.ring.readPos + 1

/-- USB is enabled, configured and ready. -/
def sendable (s : Wakeup) : Bool := s.usbEnabled && s.usbConfigured && s.hidReady

/-- A step of the ring. -/
def withRing (op : HidFifoOp) (s : Wakeup) : Option (Wakeup × List HidFifoEvent) :=
  (hidFifoStep s.ring op).map fun q => ({ s with ring := q.1 }, q.2)

end Wakeup

abbrev WakeupStepped := Option (Wakeup × List HidFifoEvent)

/-- A step of a producer. It ends with `k_work_schedule` when the record is published. -/
def produceStep (op : HidFifoOp) (s : Wakeup) : WakeupStepped :=
  match producerOf op with
  | none => none
  | some t =>
    if s.enqueuing t then none
    else
      (s.withRing op).map fun q =>
        ({ q.1 with enqueuing := if publishes op then update s.enqueuing t true else s.enqueuing }, q.2)

/-- The next step of `hid_fifo_peek_batch`. -/
def peekStep (s : Wakeup) : WakeupStepped :=
  match s.ring.consumer with
  | .idle => s.withRing .peek
  | .peeking _ _ => s.withRing .look
  | .copying _ _ _ _ => s.withRing .copyOut
  | .peeked _ => some ({ s with sender := .submitting }, [])
  | _ => none

/-- The next step of `hid_fifo_consume`. -/
def consumeStep (s : Wakeup) : WakeupStepped :=
  match s.ring.consumer with
  | .idle => some ({ s with sender := .idle }, [])
  | .consuming _ => s.withRing .release
  | .advancing _ _ => s.withRing .advance
  | _ => none

/-- The next step of `send_report`. -/
def sendStep (due taken : Bool) (s : Wakeup) : WakeupStepped :=
  match s.sender with
  | .idle => none
  | .entered => some ({ s with sender := if s.usbEnabled then .enabledSeen else .idle }, [])
  | .enabledSeen => some ({ s with sender := if s.usbConfigured then .configuredSeen else .idle }, [])
  | .configuredSeen => some ({ s with sender := if s.hidReady then .looking else .idle }, [])
  | .looking => some ({ s with sender := if s.headPublished || due then .claiming else .idle }, [])
  | .claiming =>
    if s.hidEpInBusy then some ({ s with sender := .idle }, [])
    else some ({ s with
      hidEpInBusy := true
      sender := .peeking }, [])
  | .peeking => peekStep s
  | .submitting =>
    if taken then some ({ s with
      outstanding := s.outstanding + 1
      sender := .accepted }, [])
    else (s.withRing (.submitted false)).map fun q => ({ q.1 with sender := .refused }, q.2)
  | .accepted => (s.withRing (.submitted true)).map fun q => ({ q.1 with sender := .consuming }, q.2)
  | .refused => some ({ s with
      scheduled := true
      sender := .releasing }, [])
  | .releasing => some ({ s with
      hidEpInBusy := false
      sender := .idle }, [])
  | .consuming => consumeStep s

/-- The next step of a callback. -/
def callbackStep (s : Wakeup) : WakeupStepped :=
  match s.callback with
  | .idle => none
  | .completing => some ({ s with
      hidEpInBusy := false
      callback := .checking }, [])
  | .checking => some ({ s with callback := if s.headPublished then .rescheduling else .idle }, [])
  | .rescheduling | .waking => some ({ s with
      scheduled := true
      callback := .idle }, [])
  | .unreadying => some ({ s with
      hidReady := false
      callback := .clearing }, [])
  | .clearing => some ({ s with
      hidEpInBusy := false
      callback := .idle }, [])

/-- The callbacks may run: `send_report` is at rest or waits in the USB stack. -/
def Sender.yields : Sender → Bool
  | .idle | .submitting | .accepted => true
  | _ => false

/-- A callback starts. -/
def callbackStart (s : Wakeup) (started : Wakeup) : WakeupStepped :=
  if s.callback = .idle ∧ s.sender.yields = true then some (started, []) else none

/-- One step. -/
def wakeupStep (s : Wakeup) : WakeupOp → WakeupStepped
  | .produce op => produceStep op s
  | .enqueued t =>
    if s.enqueuing t then some ({ s with
      scheduled := true
      enqueuing := update s.enqueuing t false }, [])
    else none
  | .run =>
    if s.scheduled ∧ s.sender = .idle ∧ s.callback = .idle then some ({ s with
      scheduled := false
      sender := .entered }, [])
    else none
  | .send due taken => if s.callback = .idle then sendStep due taken s else none
  | .completion =>
    if 0 < s.outstanding then callbackStart s { s with
      outstanding := s.outstanding - 1
      callback := .completing }
    else none
  | .ifaceReady true _ => callbackStart s { s with
      hidReady := true
      callback := .waking }
  | .ifaceReady false dropped => callbackStart s { s with
      hidReady := false
      outstanding := s.outstanding - dropped
      callback := .clearing }
  | .configured true _ => callbackStart s { s with
      usbConfigured := true
      callback := .waking }
  | .configured false dropped => callbackStart s { s with
      usbConfigured := false
      outstanding := s.outstanding - dropped
      callback := .unreadying }
  | .callback => if s.sender.yields then callbackStep s else none
  | .wake => some ({ s with scheduled := true }, [])
  | .enable => if s.usbConfigured then none else some ({ s with usbEnabled := true }, [])
  | .disable => some ({ s with usbEnabled := false }, [])

/-- The sender with its callbacks as a system. -/
def wakeupSystem : EventSystem Wakeup WakeupOp HidFifoEvent where
  init := .boot
  step := wakeupStep

/-! ## The law -/

/-- No handler is running, and no producer is between its push and its `k_work_schedule`. -/
structure AtRest (s : Wakeup) : Prop where
  sender : s.sender = .idle
  callback : s.callback = .idle
  enqueuing : ∀ t, s.enqueuing t = false

/-- A published head has the sender scheduled or a report under way; the busy flag is not left behind. -/
structure WakeupLaw (s : Wakeup) : Prop where
  awake : AtRest s → s.sendable = true → s.headPublished = true →
    s.scheduled = true ∨ (s.hidEpInBusy = true ∧ 0 < s.outstanding)
  busy : s.sender = .idle → s.callback = .idle → s.hidEpInBusy = true → 0 < s.outstanding

/-! ## The invariant -/

namespace Sender

/-- The sender will look at the FIFO or submit. -/
def wakes : Sender → Bool
  | .idle | .accepted | .releasing | .consuming => false
  | _ => true

/-- The sender has taken the busy flag, and the controller no report. -/
def holds : Sender → Bool
  | .peeking | .submitting | .refused | .releasing => true
  | _ => false

/-- The flag is taken for a batch. -/
def claims : Sender → Bool
  | .peeking | .submitting => true
  | _ => false

/-- The batch is peeked and not consumed. -/
def batches : Sender → Bool
  | .peeking | .submitting | .accepted => true
  | _ => false

/-- The busy flag is not taken by this run. -/
def unclaimed : Sender → Bool
  | .idle | .entered | .enabledSeen | .configuredSeen | .looking | .claiming => true
  | _ => false

/-- The batch is with the controller. -/
def sent : Sender → Bool
  | .accepted | .consuming => true
  | _ => false

section Places

variable {x : Sender}

theorem not_claims (h : x.unclaimed = true) : ¬x.claims = true := by
  revert h
  cases x <;> decide

theorem not_batches (h : x.unclaimed = true) : ¬x.batches = true := by
  revert h
  cases x <;> decide

theorem not_sent (h : x.unclaimed = true) : ¬x.sent = true := by
  revert h
  cases x <;> decide

theorem not_holds (h : x.unclaimed = true) : ¬x.holds = true := by
  revert h
  cases x <;> decide

theorem batches_of_sent (hyields : x.yields = true) (hsent : x.sent = true) : x.batches = true :=
  match x, hyields, hsent with
  | .accepted, _, _ => rfl

end Places

end Sender

namespace Callback

/-- The callback will look at the FIFO or schedule. -/
def wakes : Callback → Bool
  | .completing | .checking | .rescheduling | .waking => true
  | _ => false

/-- The callback will clear the busy flag. -/
def clears : Callback → Bool
  | .completing | .unreadying | .clearing => true
  | _ => false

/-- The callback takes USB away. -/
def takesAway : Callback → Bool
  | .unreadying | .clearing => true
  | _ => false

end Callback

namespace Consumer

/-- A record is copied or being copied. -/
def begun : Consumer → Bool
  | .idle => false
  | .peeking _ out | .peeked out | .consuming out => !out.isEmpty
  | .copying _ _ _ _ | .advancing _ _ => true

/-- The position the batch is read from. -/
def reading : Consumer → Option (BitVec 32)
  | .peeking read _ | .copying read _ _ _ => some read
  | _ => none

end Consumer

/-- `report_send` is scheduled or about to be, for a record that was pushed. -/
def Kicked (s : Wakeup) : Prop := s.scheduled = true ∨ ∃ t, s.enqueuing t = true

/-- Somebody besides the sender is bound to schedule it, or USB has to come back first. -/
def Alive (s : Wakeup) : Prop :=
  Kicked s ∨ s.callback.wakes = true ∨ (s.hidEpInBusy = true ∧ 0 < s.outstanding) ∨ s.sendable = false

/-- What holds after every step. -/
structure WakeupInvariant (s : Wakeup) : Prop where
  /-- A published head is known to the sender or somebody else. -/
  woken : s.headPublished = true → s.sender.wakes = true ∨ Alive s
  /-- Also when a callback has cleared the flag the sender took. -/
  held : s.sender.claims = true → s.hidEpInBusy = true ∨ (s.headPublished = true → Alive s)
  position : ∀ read, s.ring.consumer.reading = some read → read = s.ring.readPos
  batch : s.sender.batches = true → s.ring.consumer.begun = true → s.headPublished = true ∨ Kicked s
  sent : s.sender.sent = true → s.ring.consumer.begun = true → Alive s
  begun : s.ring.consumer.begun = true → s.sender.batches = true ∨ s.sender.sent = true
  releasing : s.sender = .releasing → s.scheduled = true
  busy : s.hidEpInBusy = true → 0 < s.outstanding ∨ s.sender.holds = true ∨ s.callback.clears = true
  down : s.callback.takesAway = true → s.sendable = false

theorem WakeupInvariant.law {s : Wakeup} (hi : WakeupInvariant s) : WakeupLaw s where
  awake := by
    intro hrest hsendable hhead
    rcases hi.woken hhead with hsender | (hscheduled | ⟨t, ht⟩) | hcallback | hbusy | hunsendable
    · rw [hrest.sender] at hsender
      cases hsender
    · exact .inl hscheduled
    · rw [hrest.enqueuing t] at ht
      cases ht
    · rw [hrest.callback] at hcallback
      cases hcallback
    · exact .inr hbusy
    · rw [hsendable] at hunsendable
      cases hunsendable
  busy := by
    intro hsender hcallback hbusy
    rcases hi.busy hbusy with houtstanding | hholds | hclears
    · exact houtstanding
    · rw [hsender] at hholds
      cases hholds
    · rw [hcallback] at hclears
      cases hclears

theorem wakeupInvariant_boot : WakeupInvariant .boot where
  woken _ := .inr (.inr (.inr (.inr rfl)))
  held := nofun
  position := nofun
  batch := nofun
  sent := nofun
  begun := nofun
  releasing := nofun
  busy := nofun
  down := nofun

/-! ### Steps outside the ring -/

section Steps

variable {s s' : Wakeup} {es : List HidFifoEvent}

theorem headPublished_congr (h : s'.ring = s.ring) : s'.headPublished = s.headPublished := by
  rw [Wakeup.headPublished, Wakeup.headPublished, h]

/-- The sender is where it was and sees the same of the ring, or a record was pushed. -/
structure Overlooks (s s' : Wakeup) : Prop where
  sender : s'.sender = s.sender
  consumer : s'.ring.consumer = s.ring.consumer
  readPos : s'.ring.readPos = s.ring.readPos
  head : Kicked s' ∨ s'.headPublished = s.headPublished

theorem Overlooks.of_ring (hring : s'.ring = s.ring) (hsender : s'.sender = s.sender) : Overlooks s s' where
  sender := hsender
  consumer := congrArg HidFifo.consumer hring
  readPos := congrArg HidFifo.readPos hring
  head := .inr (headPublished_congr hring)

/-- A step of somebody else than the sender that forgets nothing. -/
theorem WakeupInvariant.frame (hi : WakeupInvariant s) (hview : Overlooks s s')
    (hkicked : Kicked s → Kicked s') (halive : Alive s → Alive s')
    (hscheduled : s.scheduled = true → s'.scheduled = true)
    (hheld : s.hidEpInBusy = true → s'.hidEpInBusy = true ∨ Alive s')
    (hbusy : s'.hidEpInBusy = true → s.hidEpInBusy = true ∧ (0 < s.outstanding → 0 < s'.outstanding ∨
      s'.callback.clears = true) ∧ (s.callback.clears = true → s'.callback.clears = true))
    (hdown : s'.callback.takesAway = true → s'.sendable = false) : WakeupInvariant s' where
  woken hhead := by
    rcases hview.head with hpushed | hsame
    · exact .inr (.inl hpushed)
    · rw [hsame] at hhead
      rw [hview.sender]
      exact (hi.woken hhead).imp id halive
  held hclaims := by
    rw [hview.sender] at hclaims
    rcases hi.held hclaims with hflag | hwoken
    · exact (hheld hflag).imp id fun h _ => h
    · refine .inr fun hhead => ?_
      rcases hview.head with hpushed | hsame
      · exact .inl hpushed
      · rw [hsame] at hhead
        exact halive (hwoken hhead)
  position := by
    rw [hview.consumer, hview.readPos]
    exact hi.position
  batch := by
    rw [hview.sender, hview.consumer]
    intro hbatches hbegun
    rcases hview.head with hpushed | hsame
    · exact .inr hpushed
    · rw [hsame]
      exact (hi.batch hbatches hbegun).imp id hkicked
  sent := by
    rw [hview.sender, hview.consumer]
    exact fun hsent hbegun => halive (hi.sent hsent hbegun)
  begun := by
    rw [hview.sender, hview.consumer]
    exact hi.begun
  releasing := by
    rw [hview.sender]
    exact fun h => hscheduled (hi.releasing h)
  busy hflag := by
    obtain ⟨hold, houtstanding, hclears⟩ := hbusy hflag
    rw [hview.sender]
    rcases hi.busy hold with h | h | h
    · exact (houtstanding h).imp id .inr
    · exact .inr (.inl h)
    · exact .inr (.inr (hclears h))
  down := hdown

/-- A `k_work_schedule`. -/
theorem WakeupInvariant.reschedule (hi : WakeupInvariant s) (hring : s'.ring = s.ring)
    (hsender : s'.sender = s.sender) (hscheduled : s'.scheduled = true) (hbusy : s'.hidEpInBusy = s.hidEpInBusy)
    (houtstanding : s'.outstanding = s.outstanding)
    (hcallback : s.callback.clears = true → s'.callback.clears = true)
    (hdown : s'.callback.takesAway = true → s'.sendable = false) : WakeupInvariant s' := by
  have hkicked : Kicked s' := .inl hscheduled
  refine hi.frame (.of_ring hring hsender) (fun _ => hkicked) (fun _ => .inl hkicked) (fun _ => hscheduled)
    (fun h => .inl (hbusy.trans h)) (fun h => ⟨hbusy.symm.trans h, fun hpos => .inl ?_, hcallback⟩) hdown
  rwa [houtstanding]

/-- A callback that will look or schedule, or takes USB away. -/
theorem WakeupInvariant.relieved (hi : WakeupInvariant s) (hring : s'.ring = s.ring)
    (hsender : s'.sender = s.sender) (hscheduled : s'.scheduled = s.scheduled)
    (henqueuing : s'.enqueuing = s.enqueuing) (halive : Alive s')
    (hbusy : s'.hidEpInBusy = true → s.hidEpInBusy = true ∧ (0 < s.outstanding → 0 < s'.outstanding ∨
      s'.callback.clears = true) ∧ (s.callback.clears = true → s'.callback.clears = true))
    (hdown : s'.callback.takesAway = true → s'.sendable = false) : WakeupInvariant s' := by
  refine hi.frame (.of_ring hring hsender) (fun h => ?_) (fun _ => halive) (fun h => hscheduled.trans h)
    (fun _ => .inr halive) hbusy hdown
  rwa [Kicked, hscheduled, henqueuing]

theorem sendable_eq_false :
    s.sendable = false ↔ s.usbEnabled = false ∨ s.usbConfigured = false ∨ s.hidReady = false := by
  rw [Wakeup.sendable, Bool.and_eq_false_iff, Bool.and_eq_false_iff, or_assoc]

/-- What a callback that starts does. -/
theorem WakeupInvariant.afterStart (hi : WakeupInvariant s) {started : Wakeup}
    (htaken : callbackStart s started = some (s', es)) (hring : started.ring = s.ring)
    (hsender : started.sender = s.sender) (hscheduled : started.scheduled = s.scheduled)
    (henqueuing : started.enqueuing = s.enqueuing) (hflag : started.hidEpInBusy = s.hidEpInBusy)
    (halive : Alive started)
    (hkept : s.outstanding = started.outstanding ∨ started.callback.clears = true)
    (hdown : started.callback.takesAway = true → started.sendable = false) : WakeupInvariant s' := by
  simp only [callbackStart] at htaken
  split at htaken
  case isFalse => cases htaken
  case isTrue hstart =>
    obtain ⟨rfl, rfl⟩ := Prod.mk.inj (Option.some.inj htaken)
    refine hi.relieved hring hsender hscheduled henqueuing halive
      (fun hbusy => ⟨hflag.symm.trans hbusy, ?_, ?_⟩) hdown
    · intro hpos
      exact hkept.imp (fun h => by rwa [← h]) id
    · rw [hstart.1]
      nofun

/-- The next step of a callback. -/
theorem WakeupInvariant.afterCallback (hi : WakeupInvariant s) (hyields : s.sender.yields = true)
    (htaken : callbackStep s = some (s', es)) :
    WakeupInvariant s' := by
  cases hplace : s.callback with
  | idle =>
    simp only [callbackStep, hplace] at htaken
    cases htaken
  | completing =>
    simp only [callbackStep, hplace] at htaken
    obtain ⟨rfl, rfl⟩ := Prod.mk.inj (Option.some.inj htaken)
    exact hi.relieved rfl rfl rfl rfl (.inr (.inl rfl)) nofun nofun
  | checking =>
    simp only [callbackStep, hplace] at htaken
    obtain ⟨rfl, rfl⟩ := Prod.mk.inj (Option.some.inj htaken)
    cases hhead : s.headPublished with
    | true =>
      refine hi.relieved rfl rfl rfl rfl (.inr (.inl rfl)) (fun hbusy => ⟨hbusy, .inl, ?_⟩) nofun
      rw [hplace]
      nofun
    | false =>
      -- nothing is published: whoever publishes next schedules the sender
      have hunpublished : ¬s.headPublished = true := Bool.not_eq_true _ ▸ hhead
      have hbatched : s.sender.batches = true → s.ring.consumer.begun = true → Kicked s :=
        fun hbatches hbegun => (hi.batch hbatches hbegun).resolve_left hunpublished
      exact {
        woken := fun h => absurd h hunpublished
        held := fun _ => .inr fun h => absurd h hunpublished
        position := hi.position
        batch := fun hbatches hbegun => .inr (hbatched hbatches hbegun)
        sent := fun hsent hbegun => by
          exact .inl (hbatched (Sender.batches_of_sent hyields hsent) hbegun)
        begun := hi.begun
        releasing := hi.releasing
        busy := fun hbusy => by
          refine (hi.busy hbusy).imp id (Or.imp id fun hclears => ?_)
          rw [hplace] at hclears
          cases hclears
        down := nofun }
  | rescheduling | waking =>
    simp only [callbackStep, hplace] at htaken
    obtain ⟨rfl, rfl⟩ := Prod.mk.inj (Option.some.inj htaken)
    exact hi.reschedule rfl rfl rfl rfl rfl (by rw [hplace]; nofun) nofun
  | unreadying =>
    simp only [callbackStep, hplace] at htaken
    obtain ⟨rfl, rfl⟩ := Prod.mk.inj (Option.some.inj htaken)
    have hdown : ({ s with
        hidReady := false
        callback := .clearing } : Wakeup).sendable = false := sendable_eq_false.mpr (.inr (.inr rfl))
    exact hi.relieved rfl rfl rfl rfl (.inr (.inr (.inr hdown))) (fun hbusy => ⟨hbusy, .inl, fun _ => rfl⟩)
      fun _ => hdown
  | clearing =>
    simp only [callbackStep, hplace] at htaken
    obtain ⟨rfl, rfl⟩ := Prod.mk.inj (Option.some.inj htaken)
    exact hi.relieved rfl rfl rfl rfl (.inr (.inr (.inr (hi.down (by rw [hplace]; rfl))))) nofun nofun

end Steps

/-! ### Steps of the ring -/

section Ring

variable {s s' : Wakeup} {es : List HidFifoEvent} {r r' : HidFifo} {t : ℕ}

/-- A producer leaves the consumer alone, and the sequence numbers but where it publishes. -/
theorem hidFifoStep_producer {op : HidFifoOp} (hop : producerOf op = some t)
    (h : hidFifoStep r op = some (r', es)) : r'.consumer = r.consumer ∧ r'.readPos = r.readPos ∧
      (publishes op = false → ∀ i, (r'.slots i).seq = (r.slots i).seq) := by
  cases op with
  | push t' record priority | load t' =>
    simp only [hidFifoStep] at h
    split at h
    · obtain ⟨rfl, rfl⟩ := Prod.mk.inj (Option.some.inj h)
      exact ⟨rfl, rfl, fun _ _ => rfl⟩
    · cases h
  | check t' =>
    simp only [hidFifoStep] at h
    split at h
    · split at h
      all_goals
        obtain ⟨rfl, rfl⟩ := Prod.mk.inj (Option.some.inj h)
        exact ⟨rfl, rfl, fun _ _ => rfl⟩
    · cases h
  | swap t' =>
    simp only [hidFifoStep] at h
    split at h
    · split at h
      all_goals
        obtain ⟨rfl, rfl⟩ := Prod.mk.inj (Option.some.inj h)
        exact ⟨rfl, rfl, fun _ _ => rfl⟩
    · cases h
  | copy t' =>
    simp only [hidFifoStep] at h
    split at h
    case h_1 record pos seen k hplace =>
      split at h
      · obtain ⟨rfl, rfl⟩ := Prod.mk.inj (Option.some.inj h)
        refine ⟨rfl, rfl, fun _ i => ?_⟩
        change (update r.slots (slotOf pos) _ i).seq = (r.slots i).seq
        by_cases hi : i = slotOf pos
        · rw [hi, update_self]
        · rw [update_of_ne hi]
      · cases h
    · cases h
  | publish t' =>
    simp only [hidFifoStep] at h
    split at h
    · split at h
      · obtain ⟨rfl, rfl⟩ := Prod.mk.inj (Option.some.inj h)
        exact ⟨rfl, rfl, by rintro ⟨⟩⟩
      · cases h
    · cases h
  | peek | look | copyOut | submitted ok | release | advance => cases hop

/-- A step of a producer. What it publishes it is bound to schedule the sender for. -/
theorem WakeupInvariant.afterProduce (hi : WakeupInvariant s) {op : HidFifoOp}
    (htaken : produceStep op s = some (s', es)) : WakeupInvariant s' := by
  simp only [produceStep] at htaken
  cases hop : producerOf op with
  | none =>
    simp only [hop] at htaken
    cases htaken
  | some t =>
    simp only [hop] at htaken
    split at htaken
    case isTrue => cases htaken
    case isFalse hfree =>
      simp only [Wakeup.withRing, Option.map_map, Option.map_eq_some_iff] at htaken
      obtain ⟨⟨r', es'⟩, hring, htaken⟩ := htaken
      obtain ⟨rfl, rfl⟩ := Prod.mk.inj htaken
      obtain ⟨hconsumer, hread, hseq⟩ := hidFifoStep_producer hop hring
      have hview : Overlooks s { s with
          ring := r'
          enqueuing := if publishes op then update s.enqueuing t true else s.enqueuing } :=
        ⟨rfl, hconsumer, hread, by
          cases hpublishes : publishes op with
          | false =>
            refine .inr ?_
            rw [Wakeup.headPublished, Wakeup.headPublished, hread, hseq hpublishes]
          | true => exact .inl (.inr ⟨t, update_self _ _ _⟩)⟩
      have hkicked : Kicked s → Kicked { s with
          ring := r'
          enqueuing := if publishes op then update s.enqueuing t true else s.enqueuing } := by
        refine Or.imp id fun ⟨t', ht'⟩ => ?_
        cases publishes op with
        | false => exact ⟨t', ht'⟩
        | true => exact ⟨t, update_self _ _ _⟩
      exact hi.frame hview hkicked (Or.imp hkicked id) id .inl (fun h => ⟨h, .inl, id⟩) hi.down

/-- A step of `hid_fifo_peek_batch` on the ring. -/
theorem WakeupInvariant.peeks (hi : WakeupInvariant s) (hsender : s.sender = .peeking) {ring : HidFifo}
    (hslots : ring.slots = s.ring.slots) (hread : ring.readPos = s.ring.readPos)
    (hposition : ∀ read, ring.consumer.reading = some read → read = ring.readPos)
    (hbatch : ring.consumer.begun = true → s.headPublished = true ∨ Kicked s) :
    WakeupInvariant { s with ring } := by
  have hhead : ({ s with ring } : Wakeup).headPublished = s.headPublished := by
    rw [Wakeup.headPublished, Wakeup.headPublished, hslots, hread]
  exact {
    woken := fun _ => .inl (by rw [hsender]; rfl)
    held := fun hclaims => by
      rw [hhead]
      exact hi.held hclaims
    position := hposition
    batch := fun _ hbegun => by
      rw [hhead]
      exact hbatch hbegun
    sent := fun hsent => by
      rw [hsender] at hsent
      cases hsent
    begun := fun _ => .inl (by rw [hsender]; rfl)
    releasing := hi.releasing
    busy := hi.busy
    down := hi.down }

/-- The next step of `hid_fifo_peek_batch`. -/
theorem WakeupInvariant.afterPeek (hi : WakeupInvariant s) (hsender : s.sender = .peeking)
    (htaken : peekStep s = some (s', es)) : WakeupInvariant s' := by
  have hbatches : s.sender.batches = true := by
    rw [hsender]
    rfl
  simp only [peekStep] at htaken
  cases hconsumer : s.ring.consumer with
  | idle =>
    simp only [hconsumer, Wakeup.withRing, hidFifoStep, Option.map_some] at htaken
    obtain ⟨rfl, rfl⟩ := Prod.mk.inj (Option.some.inj htaken)
    refine hi.peeks hsender rfl rfl (fun read hread => ?_) (by rintro ⟨⟩)
    exact (Option.some.inj hread).symm
  | peeking read out =>
    have hread : read = s.ring.readPos := hi.position read (by rw [hconsumer]; rfl)
    simp only [hconsumer, Wakeup.withRing, hidFifoStep] at htaken
    split at htaken
    case isTrue hpublished =>
      obtain ⟨rfl, rfl⟩ := Prod.mk.inj (Option.some.inj htaken)
      refine hi.peeks hsender rfl rfl (fun read' hread' => ?_) fun _ => ?_
      · exact (Option.some.inj hread').symm.trans hread
      · -- the first record looked at is the head
        cases out with
        | nil =>
          refine .inl ?_
          rw [Wakeup.headPublished, ← hread, beq_iff_eq]
          simpa using hpublished.2
        | cons record out => exact hi.batch hbatches (by rw [hconsumer]; rfl)
    case isFalse =>
      obtain ⟨rfl, rfl⟩ := Prod.mk.inj (Option.some.inj htaken)
      refine hi.peeks hsender rfl rfl (by rintro _ ⟨⟩) fun hbegun => ?_
      exact hi.batch hbatches (by rw [hconsumer]; exact hbegun)
  | copying read out part k =>
    have hread : read = s.ring.readPos := hi.position read (by rw [hconsumer]; rfl)
    have hcopied : s.headPublished = true ∨ Kicked s := hi.batch hbatches (by rw [hconsumer]; rfl)
    simp only [hconsumer, Wakeup.withRing, hidFifoStep] at htaken
    split at htaken
    all_goals
      obtain ⟨rfl, rfl⟩ := Prod.mk.inj (Option.some.inj htaken)
      exact hi.peeks hsender rfl rfl (fun read' hread' => (Option.some.inj hread').symm.trans hread)
        fun _ => hcopied
  | peeked out =>
    simp only [hconsumer] at htaken
    obtain ⟨rfl, rfl⟩ := Prod.mk.inj (Option.some.inj htaken)
    exact {
      woken := fun _ => .inl rfl
      held := fun _ => hi.held (by rw [hsender]; rfl)
      position := hi.position
      batch := fun _ => hi.batch hbatches
      sent := by rintro ⟨⟩
      begun := fun _ => .inl rfl
      releasing := by rintro ⟨⟩
      busy := fun hbusy => (hi.busy hbusy).imp id (Or.imp (fun _ => rfl) id)
      down := hi.down }
  | consuming out | advancing read out =>
    simp only [hconsumer] at htaken
    cases htaken

/-- A step of `hid_fifo_consume` on the ring. -/
theorem WakeupInvariant.consumes (hi : WakeupInvariant s) (hsender : s.sender = .consuming) {ring : HidFifo}
    (hposition : ring.consumer.reading = none) (hbegun : ring.consumer.begun = true → Alive s)
    (hwoken : ({ s with ring } : Wakeup).headPublished = true → Alive s) : WakeupInvariant { s with ring } where
  woken hhead := .inr (hwoken hhead)
  held hclaims := by
    rw [hsender] at hclaims
    cases hclaims
  position read hread := by
    rw [hposition] at hread
    cases hread
  batch hbatches := by
    rw [hsender] at hbatches
    cases hbatches
  sent _ := hbegun
  begun _ := .inr (by rw [hsender]; rfl)
  releasing := hi.releasing
  busy := hi.busy
  down := hi.down

/-- The next step of `hid_fifo_consume`. -/
theorem WakeupInvariant.afterConsume (hi : WakeupInvariant s) (hsender : s.sender = .consuming)
    (htaken : consumeStep s = some (s', es)) : WakeupInvariant s' := by
  have hsent : s.sender.sent = true := by
    rw [hsender]
    rfl
  have hwoken : s.headPublished = true → Alive s := by
    intro hhead
    refine (hi.woken hhead).resolve_left ?_
    rw [hsender]
    rintro ⟨⟩
  simp only [consumeStep] at htaken
  cases hconsumer : s.ring.consumer with
  | idle =>
    simp only [hconsumer] at htaken
    obtain ⟨rfl, rfl⟩ := Prod.mk.inj (Option.some.inj htaken)
    exact {
      woken := fun hhead => .inr (hwoken hhead)
      held := by rintro ⟨⟩
      position := hi.position
      batch := by rintro ⟨⟩
      sent := by rintro ⟨⟩
      begun := fun hbegun => by
        rw [hconsumer] at hbegun
        cases hbegun
      releasing := by rintro ⟨⟩
      busy := fun hflag => by
        refine (hi.busy hflag).imp id fun h => .inr (h.resolve_left ?_)
        rw [hsender]
        rintro ⟨⟩
      down := hi.down }
  | consuming out =>
    cases out with
    | nil =>
      simp only [hconsumer, Wakeup.withRing, hidFifoStep, Option.map_some] at htaken
      obtain ⟨rfl, rfl⟩ := Prod.mk.inj (Option.some.inj htaken)
      exact hi.consumes hsender rfl (by rintro ⟨⟩) hwoken
    | cons record out =>
      have halive : Alive s := hi.sent hsent (by rw [hconsumer]; rfl)
      simp only [hconsumer, Wakeup.withRing, hidFifoStep, Option.map_some] at htaken
      obtain ⟨rfl, rfl⟩ := Prod.mk.inj (Option.some.inj htaken)
      exact hi.consumes hsender rfl (fun _ => halive) fun _ => halive
  | advancing read out =>
    have halive : Alive s := hi.sent hsent (by rw [hconsumer]; rfl)
    cases out with
    | nil =>
      simp only [hconsumer, Wakeup.withRing, hidFifoStep, Option.map_none] at htaken
      cases htaken
    | cons record out =>
      simp only [hconsumer, Wakeup.withRing, hidFifoStep, Option.map_some] at htaken
      obtain ⟨rfl, rfl⟩ := Prod.mk.inj (Option.some.inj htaken)
      exact hi.consumes hsender rfl (fun _ => halive) fun _ => halive
  | peeking | copying | peeked =>
    simp only [hconsumer] at htaken
    cases htaken

/-- Outside a batch no record is copied. -/
theorem WakeupInvariant.unbegun (hi : WakeupInvariant s) (hunclaimed : s.sender.unclaimed = true) :
    ¬s.ring.consumer.begun = true := fun hbegun =>
  (hi.begun hbegun).elim (Sender.not_batches hunclaimed) (Sender.not_sent hunclaimed)

/-- The sender without the busy flag: it goes on to look, or gives up what somebody else knows of. -/
theorem WakeupInvariant.looks (hi : WakeupInvariant s) (hbefore : s.sender.unclaimed = true) (sender : Sender)
    (hafter : sender.unclaimed = true) (hwoken : s.headPublished = true → sender.wakes = true ∨ Alive s) :
    WakeupInvariant { s with sender } where
  woken := hwoken
  held hclaims := absurd hclaims (Sender.not_claims hafter)
  position := hi.position
  batch hbatches := absurd hbatches (Sender.not_batches hafter)
  sent hsent := absurd hsent (Sender.not_sent hafter)
  begun hbegun := absurd hbegun (hi.unbegun hbefore)
  releasing hreleasing := by
    obtain rfl : sender = .releasing := hreleasing
    cases hafter
  busy hflag := (hi.busy hflag).imp id fun h => .inr (h.resolve_left (Sender.not_holds hbefore))
  down := hi.down

/-- The sender returns as USB is down. -/
theorem WakeupInvariant.returns (hi : WakeupInvariant s) (hbefore : s.sender.unclaimed = true)
    (hdown : s.sendable = false) : WakeupInvariant { s with sender := .idle } :=
  hi.looks hbefore .idle rfl fun _ => .inr (.inr (.inr (.inr hdown)))

/-- The controller takes the report. -/
theorem WakeupInvariant.accepts (hi : WakeupInvariant s) (hsender : s.sender = .submitting) :
    WakeupInvariant { s with
      outstanding := s.outstanding + 1
      sender := .accepted } := by
  have hclaims : s.sender.claims = true := by
    rw [hsender]
    rfl
  have hwoken : s.headPublished = true → Alive { s with
      outstanding := s.outstanding + 1
      sender := .accepted } := by
    intro hhead
    rcases hi.held hclaims with hflag | hwoken
    · exact .inr (.inr (.inl ⟨hflag, Nat.succ_pos _⟩))
    · exact (hwoken hhead).imp id (Or.imp id (Or.imp (And.imp id fun _ => Nat.succ_pos _) id))
  have hbatch : s.ring.consumer.begun = true → s.headPublished = true ∨ Kicked s :=
    hi.batch (by rw [hsender]; rfl)
  exact {
    woken := fun hhead => .inr (hwoken hhead)
    held := nofun
    position := hi.position
    batch := fun _ => hbatch
    sent := fun _ hbegun => (hbatch hbegun).elim hwoken .inl
    begun := fun _ => .inl rfl
    releasing := nofun
    busy := fun _ => .inl (Nat.succ_pos _)
    down := hi.down }

/-- The controller refuses the report. -/
theorem WakeupInvariant.afterRefusal (hi : WakeupInvariant s)
    (htaken : ((s.withRing (.submitted false)).map fun q => ({ q.1 with sender := .refused }, q.2)) =
      some (s', es)) : WakeupInvariant s' := by
  cases hconsumer : s.ring.consumer with
  | peeked out =>
    simp only [Wakeup.withRing, hidFifoStep, hconsumer, Option.map_some] at htaken
    obtain ⟨rfl, rfl⟩ := Prod.mk.inj (Option.some.inj htaken)
    exact {
      woken := fun _ => .inl rfl
      held := by rintro ⟨⟩
      position := by rintro _ ⟨⟩
      batch := by rintro ⟨⟩
      sent := by rintro ⟨⟩
      begun := by rintro ⟨⟩
      releasing := by rintro ⟨⟩
      busy := fun hflag => (hi.busy hflag).imp id (Or.imp (fun _ => rfl) id)
      down := hi.down }
  | idle | peeking | copying | consuming | advancing =>
    simp only [Wakeup.withRing, hidFifoStep, hconsumer, Option.map_none] at htaken
    cases htaken

/-- `hid_device_submit_report` returns. -/
theorem WakeupInvariant.afterAcceptance (hi : WakeupInvariant s) (hsender : s.sender = .accepted)
    (htaken : ((s.withRing (.submitted true)).map fun q => ({ q.1 with sender := .consuming }, q.2)) =
      some (s', es)) : WakeupInvariant s' := by
  cases hconsumer : s.ring.consumer with
  | peeked out =>
    have hbegun : (Consumer.consuming out).begun = true → Alive s :=
      fun h => hi.sent (by rw [hsender]; rfl) (by rw [hconsumer]; exact h)
    have hwoken : s.headPublished = true → Alive s := by
      intro hhead
      refine (hi.woken hhead).resolve_left ?_
      rw [hsender]
      rintro ⟨⟩
    simp only [Wakeup.withRing, hidFifoStep, hconsumer, Option.map_some] at htaken
    obtain ⟨rfl, rfl⟩ := Prod.mk.inj (Option.some.inj htaken)
    exact {
      woken := fun hhead => .inr (hwoken hhead)
      held := by rintro ⟨⟩
      position := by rintro _ ⟨⟩
      batch := by rintro ⟨⟩
      sent := fun _ => hbegun
      begun := fun _ => .inr rfl
      releasing := by rintro ⟨⟩
      busy := fun hflag => by
        refine (hi.busy hflag).imp id fun h => .inr (h.resolve_left ?_)
        rw [hsender]
        rintro ⟨⟩
      down := hi.down }
  | idle | peeking | copying | consuming | advancing =>
    simp only [Wakeup.withRing, hidFifoStep, hconsumer, Option.map_none] at htaken
    cases htaken

/-- The next step of `send_report`, which no callback is in. -/
theorem WakeupInvariant.afterSend (hi : WakeupInvariant s) (hcallback : s.callback = .idle) {due taken : Bool}
    (htaken : sendStep due taken s = some (s', es)) : WakeupInvariant s' := by
  cases hsender : s.sender with
  | idle =>
    simp only [sendStep, hsender] at htaken
    cases htaken
  | entered =>
    simp only [sendStep, hsender] at htaken
    obtain ⟨rfl, rfl⟩ := Prod.mk.inj (Option.some.inj htaken)
    split
    case isTrue => exact hi.looks (by rw [hsender]; rfl) .enabledSeen rfl fun _ => .inl rfl
    case isFalse hdisabled =>
      exact hi.returns (by rw [hsender]; rfl) (sendable_eq_false.mpr (.inl (Bool.not_eq_true _ ▸ hdisabled)))
  | enabledSeen =>
    simp only [sendStep, hsender] at htaken
    obtain ⟨rfl, rfl⟩ := Prod.mk.inj (Option.some.inj htaken)
    split
    case isTrue => exact hi.looks (by rw [hsender]; rfl) .configuredSeen rfl fun _ => .inl rfl
    case isFalse hdown =>
      exact hi.returns (by rw [hsender]; rfl) (sendable_eq_false.mpr (.inr (.inl (Bool.not_eq_true _ ▸ hdown))))
  | configuredSeen =>
    simp only [sendStep, hsender] at htaken
    obtain ⟨rfl, rfl⟩ := Prod.mk.inj (Option.some.inj htaken)
    split
    case isTrue => exact hi.looks (by rw [hsender]; rfl) .looking rfl fun _ => .inl rfl
    case isFalse hdown =>
      exact hi.returns (by rw [hsender]; rfl) (sendable_eq_false.mpr (.inr (.inr (Bool.not_eq_true _ ▸ hdown))))
  | looking =>
    simp only [sendStep, hsender] at htaken
    obtain ⟨rfl, rfl⟩ := Prod.mk.inj (Option.some.inj htaken)
    split
    case isTrue => exact hi.looks (by rw [hsender]; rfl) .claiming rfl fun _ => .inl rfl
    case isFalse hempty =>
      refine hi.looks (by rw [hsender]; rfl) .idle rfl fun hhead => absurd ?_ hempty
      rw [hhead, Bool.true_or]
  | claiming =>
    simp only [sendStep, hsender] at htaken
    split at htaken
    case isTrue hflag =>
      -- the flag is taken: its report is under way
      obtain ⟨rfl, rfl⟩ := Prod.mk.inj (Option.some.inj htaken)
      have houtstanding : 0 < s.outstanding := by
        rcases hi.busy hflag with h | h | h
        · exact h
        · rw [hsender] at h
          cases h
        · rw [hcallback] at h
          cases h
      exact hi.looks (by rw [hsender]; rfl) .idle rfl fun _ => .inr (.inr (.inr (.inl ⟨hflag, houtstanding⟩)))
    case isFalse =>
      obtain ⟨rfl, rfl⟩ := Prod.mk.inj (Option.some.inj htaken)
      exact {
        woken := fun _ => .inl rfl
        held := fun _ => .inl rfl
        position := hi.position
        batch := fun _ hbegun => absurd hbegun (hi.unbegun (by rw [hsender]; rfl))
        sent := nofun
        begun := fun _ => .inl rfl
        releasing := nofun
        busy := fun _ => .inr (.inl rfl)
        down := hi.down }
  | peeking =>
    simp only [sendStep, hsender] at htaken
    exact hi.afterPeek hsender htaken
  | submitting =>
    simp only [sendStep, hsender] at htaken
    split at htaken
    case isTrue =>
      obtain ⟨rfl, rfl⟩ := Prod.mk.inj (Option.some.inj htaken)
      exact hi.accepts hsender
    case isFalse => exact hi.afterRefusal htaken
  | accepted =>
    simp only [sendStep, hsender] at htaken
    exact hi.afterAcceptance hsender htaken
  | refused =>
    simp only [sendStep, hsender] at htaken
    obtain ⟨rfl, rfl⟩ := Prod.mk.inj (Option.some.inj htaken)
    exact {
      woken := fun _ => .inr (.inl (.inl rfl))
      held := nofun
      position := hi.position
      batch := nofun
      sent := nofun
      begun := fun hbegun => by
        have hplace := hi.begun hbegun
        rw [hsender] at hplace
        exact hplace.elim nofun nofun
      releasing := fun _ => rfl
      busy := fun hflag => (hi.busy hflag).imp id (Or.imp (fun _ => rfl) id)
      down := hi.down }
  | releasing =>
    simp only [sendStep, hsender] at htaken
    obtain ⟨rfl, rfl⟩ := Prod.mk.inj (Option.some.inj htaken)
    exact {
      woken := fun _ => .inr (.inl (.inl (hi.releasing hsender)))
      held := nofun
      position := hi.position
      batch := nofun
      sent := nofun
      begun := fun hbegun => by
        have hplace := hi.begun hbegun
        rw [hsender] at hplace
        exact hplace.elim nofun nofun
      releasing := nofun
      busy := nofun
      down := hi.down }
  | consuming =>
    simp only [sendStep, hsender] at htaken
    exact hi.afterConsume hsender htaken

/-- The work queue starts the sender. -/
theorem WakeupInvariant.runs (hi : WakeupInvariant s) (hsender : s.sender = .idle) :
    WakeupInvariant { s with
      scheduled := false
      sender := .entered } where
  woken _ := .inl rfl
  held := nofun
  position := hi.position
  batch := nofun
  sent := nofun
  begun hbegun := absurd hbegun (hi.unbegun (by rw [hsender]; rfl))
  releasing := nofun
  busy hflag := by
    refine (hi.busy hflag).imp id fun h => .inr (h.resolve_left ?_)
    rw [hsender]
    nofun
  down := hi.down

end Ring

/-! ## The theorem -/

theorem WakeupInvariant.step {s s' : Wakeup} {es : List HidFifoEvent} (hi : WakeupInvariant s) {op : WakeupOp}
    (htaken : wakeupStep s op = some (s', es)) : WakeupInvariant s' := by
  cases op with
  | produce op => exact hi.afterProduce htaken
  | enqueued t =>
    simp only [wakeupStep] at htaken
    split at htaken
    case isFalse => cases htaken
    case isTrue =>
      obtain ⟨rfl, rfl⟩ := Prod.mk.inj (Option.some.inj htaken)
      exact hi.reschedule rfl rfl rfl rfl rfl id hi.down
  | run =>
    simp only [wakeupStep] at htaken
    split at htaken
    case isFalse => cases htaken
    case isTrue hstart =>
      obtain ⟨rfl, rfl⟩ := Prod.mk.inj (Option.some.inj htaken)
      exact hi.runs hstart.2.1
  | send due taken =>
    simp only [wakeupStep] at htaken
    split at htaken
    case isFalse => cases htaken
    case isTrue hcallback => exact hi.afterSend hcallback htaken
  | completion =>
    simp only [wakeupStep] at htaken
    split at htaken
    case isFalse => cases htaken
    case isTrue => exact hi.afterStart htaken rfl rfl rfl rfl rfl (.inr (.inl rfl)) (.inr rfl) nofun
  | ifaceReady ready dropped =>
    cases ready with
    | true => exact hi.afterStart htaken rfl rfl rfl rfl rfl (.inr (.inl rfl)) (.inl rfl) nofun
    | false =>
      have hdown : ({ s with
          hidReady := false
          outstanding := s.outstanding - dropped
          callback := .clearing } : Wakeup).sendable = false := sendable_eq_false.mpr (.inr (.inr rfl))
      exact hi.afterStart htaken rfl rfl rfl rfl rfl (.inr (.inr (.inr hdown))) (.inr rfl) (fun _ => hdown)
  | configured configured dropped =>
    cases configured with
    | true => exact hi.afterStart htaken rfl rfl rfl rfl rfl (.inr (.inl rfl)) (.inl rfl) nofun
    | false =>
      have hdown : ({ s with
          usbConfigured := false
          outstanding := s.outstanding - dropped
          callback := .unreadying } : Wakeup).sendable = false := sendable_eq_false.mpr (.inr (.inl rfl))
      exact hi.afterStart htaken rfl rfl rfl rfl rfl (.inr (.inr (.inr hdown))) (.inr rfl) (fun _ => hdown)
  | callback =>
    simp only [wakeupStep] at htaken
    split at htaken
    case isFalse => cases htaken
    case isTrue hyields => exact hi.afterCallback hyields htaken
  | wake =>
    obtain ⟨rfl, rfl⟩ := Prod.mk.inj (Option.some.inj htaken)
    exact hi.reschedule rfl rfl rfl rfl rfl id hi.down
  | enable =>
    simp only [wakeupStep] at htaken
    split at htaken
    case isTrue => cases htaken
    case isFalse hunconfigured =>
      obtain ⟨rfl, rfl⟩ := Prod.mk.inj (Option.some.inj htaken)
      have hdown : ({ s with usbEnabled := true } : Wakeup).sendable = false :=
        sendable_eq_false.mpr (.inr (.inl (Bool.not_eq_true _ ▸ hunconfigured)))
      exact hi.relieved rfl rfl rfl rfl (.inr (.inr (.inr hdown))) (fun h => ⟨h, .inl, id⟩) fun _ => hdown
  | disable =>
    obtain ⟨rfl, rfl⟩ := Prod.mk.inj (Option.some.inj htaken)
    have hdown : ({ s with usbEnabled := false } : Wakeup).sendable = false := sendable_eq_false.mpr (.inl rfl)
    exact hi.relieved rfl rfl rfl rfl (.inr (.inr (.inr hdown))) (fun h => ⟨h, .inl, id⟩) fun _ => hdown

/-- A push by the first producer. -/
def pushOnce : List WakeupOp :=
  [WakeupOp.produce (.push 0 (fun _ => 1) false), .produce (.load 0), .produce (.check 0), .produce (.swap 0)] ++
    List.replicate 17 (WakeupOp.produce (.copy 0)) ++ [WakeupOp.produce (.publish 0), .enqueued 0]

/-- A second record is pushed while the report with the first is under way. -/
def pushTwice : List WakeupOp :=
  [WakeupOp.enable, .configured true 0, .callback, .ifaceReady true 0, .callback] ++ pushOnce ++ [WakeupOp.run] ++
    List.replicate 33 (WakeupOp.send false true) ++ pushOnce ++ [WakeupOp.run] ++
    List.replicate 5 (WakeupOp.send false true)

end Hid

end SlimeReceiver
