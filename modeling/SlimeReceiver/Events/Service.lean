import SlimeReceiver.Events.Codec
import SlimeReceiver.Events.CacheSystem
import SlimeReceiver.Events.Host

/-! # The event service as a system

`tracker_events.c` and the sending side of `hid.c`, with a step for each piece that no other context
can interrupt: a critical section, an access to a queue, a reading of the uptime, a submission.

* **`Owner`** — where the thread of `tracker_events_process` is, `deliver` included.
* **`Sender`** — where `send_report` is.
* **`ServiceOp`**, **`Service.step`**, **`serviceSystem`** — what the threads, the radio, the host and
  the producers of other records can do, in any order. -/

namespace SlimeReceiver.Events

open Function (update)

/-- `RX_COUNT`. -/
def rxCount : ℕ := 32

/-- An event that passed `tracker_event_decode`. -/
structure ValidRx where
  rx : RxEvent
  valid : trackerEventValid rx.event = true

/-! ## Where the threads are -/

/-- How `tracker_events_process` goes on after its deliveries. -/
inductive Continuation
  | drain (now : ℕ) (i : ℕ)
  | check (now : ℕ) (rest : List (BitVec 8 × CacheSlot))

/-- The stages of `deliver`. -/
inductive DeliverStage
  | start
  /-- The uptime was read. -/
  | sampled (now : ℕ)
  /-- The record passed `tracker_events_hid_valid`. -/
  | admitted
  /-- A slot of the FIFO was claimed. -/
  | claimed (ticket : ℕ)
  /-- The record was published; the rest receipt is not committed yet. -/
  | written

/-- The thread that calls `tracker_events_process`. -/
inductive Owner
  | idle
  /-- Before the `i`-th `k_msgq_get`. -/
  | draining (now : ℕ) (i : ℕ)
  /-- Before the critical section of `process_rx`. -/
  | processing (now : ℕ) (i : ℕ) (rx : ValidRx)
  /-- Before the critical section of the next entry. -/
  | checking (now : ℕ) (rest : List (BitVec 8 × CacheSlot))
  | delivering (stage : DeliverStage) (out : Delivery) (rest : List Delivery) (next : Continuation)

/-- The work item `send_report`. -/
inductive Sender
  | idle
  /-- The batch was copied from the FIFO and the report padded. -/
  | peeked (batch : List (ℕ × HidRecord))
  /-- Rechecking the batch; `none` is a record replaced by padding. -/
  | checking (now : ℕ) (done : List (Option (ℕ × HidRecord))) (rest : List (ℕ × HidRecord))

/-- Where the owner is when it has `rest` left to deliver. -/
def Owner.deliverAll (rest : List Delivery) (next : Continuation) : Owner :=
  match rest with
  | out :: rest => .delivering .start out rest next
  | [] =>
    match next with
    | .drain now i => .draining now i
    | .check now rest => .checking now rest

/-- The entries in the order of the loops of `tracker_events_process`. -/
def allChecks : List (BitVec 8 × CacheSlot) :=
  (List.range maxEventTrackers).flatMap fun t => allSlots.map fun slot => (BitVec.ofNat 8 t, slot)

/-! ## The system -/

/-- The state of the service. -/
structure Service where
  uptime : ℕ
  subscription : Subscription
  pairingGenerations : BitVec 8 → BitVec 32
  trackers : BitVec 8 → TrackerCache
  /-- `event_rx_queue`. -/
  queue : List ValidRx
  owner : Owner
  fifo : HidFifo
  sender : Sender

/-- What the contexts can do. -/
inductive ServiceOp
  | tick (ms : ℕ)
  /-- `tracker_events_receive` with an uptime read before. -/
  | receive (packet : List (BitVec 8)) (now : ℕ)
  /-- `tracker_events_control`, with the uptime it read before its critical section. -/
  | control (args : List (BitVec 8)) (generation : BitVec 32) (now : ℕ)
  | usbReset
  | pairingInvalidate (mask : BitVec 32)
  /-- One critical section of `tracker_events_pairing_cleanup`. -/
  | pairingCleanup (tracker : BitVec 8)
  /-- The owner goes on, or calls `tracker_events_process`. -/
  | owner
  /-- Another producer claims a slot. -/
  | claim (priority : Bool)
  /-- Another producer publishes its record. -/
  | publish (ticket : ℕ) (data : List (BitVec 8))
  /-- `send_report` goes on, or starts. -/
  | sender
  /-- `hid_device_submit_report` returns. -/
  | submit (accepted : Bool)

/-- What a history records of the service. -/
inductive ServiceEvent
  /-- What happened to the cache of a tracker, and when. -/
  | cache (tracker : BitVec 8) (time : ℕ) (e : CacheEvent)
  /-- `tracker_events_process(now)` examined an entry. -/
  | examined (tracker : BitVec 8) (slot : CacheSlot) (now : ℕ)
  /-- The subscription generation was replaced. -/
  | retired
  /-- The lease was started or renewed. -/
  | leased (now : ℕ)
  /-- A record passed the check of `deliver`. -/
  | admitted (record : HidRecord)
  | queued (ticket : ℕ) (record : HidRecord)
  /-- A record of the report was rechecked, against a subscription and an uptime. -/
  | checked (ticket : ℕ) (record : HidRecord) (subscription : Subscription) (now : ℕ) (valid : Bool)
  /-- The records of a report that was submitted; `none` is padding. -/
  | submitted (report : List (Option (ℕ × HidRecord)))
  deriving DecidableEq

namespace Service

/-- The static initial values. -/
def init : Service where
  uptime := 0
  subscription := .init
  pairingGenerations := fun _ => 0
  trackers := fun _ => .zero
  queue := []
  owner := .idle
  fifo := ⟨0, []⟩
  sender := .idle

/-- `rx` as `tracker_events_receive` fills it in. -/
def receivedRx (e : TrackerEvent) (now : ℕ) (s : Service) : RxEvent where
  event := e
  receivedAt := now
  pairingGeneration := s.pairingGenerations e.trackerId
  subscriptionGeneration := s.subscription.generationFor e.trackerId e.kind (stamp now)

/-- `tracker_events_receive`. -/
def receive (packet : List (BitVec 8)) (now : ℕ) (s : Service) : Service :=
  match h : trackerEventDecode packet with
  | none => s
  | some e =>
    if s.queue.length < rxCount then
      { s with
        queue := s.queue ++ [⟨s.receivedRx e now, (trackerEventDecode_iff.mp h).1⟩] }
    else s

/-- What a granted request reports. -/
def controlEvents (action : BitVec 8) (now : ℕ) : List ServiceEvent :=
  (if action = 1 ∨ action = 3 then [ServiceEvent.retired] else []) ++
    if action = 1 ∨ action = 2 then [.leased now] else []

/-- `tracker_events_pairing_invalidate`. -/
def pairingInvalidate (mask : BitVec 32) (s : Service) : Service :=
  { s with
    pairingGenerations := fun t =>
      if t.toNat < maxEventTrackers ∧ mask.getLsbD t.toNat then nextGeneration (s.pairingGenerations t)
      else s.pairingGenerations t
    subscription := s.subscription.retire }

/-- The cache of a tracker replaced. -/
def withTracker (tracker : BitVec 8) (c : TrackerCache) (s : Service) : Service :=
  { s with trackers := update s.trackers tracker c }

/-- The delivered event is a rest state, whose receipt is committed. -/
def commits (out : Delivery) : Bool :=
  out.event.isState && out.event.outcome == calOutcomeNone

/-- The record `deliver` makes. -/
def recordOf (out : Delivery) : HidRecord where
  data := trackerEventEncodeHid out.event out.opcode
  subscriptionGeneration := out.generation

/-- The next piece of `deliver`. -/
def deliverStep (stage : DeliverStage) (out : Delivery) (rest : List Delivery) (next : Continuation)
    (s : Service) : Service × List ServiceEvent :=
  match stage with
  | .start =>
    if out.generation = 0 then ({ s with owner := .deliverAll rest next }, [])
    else ({ s with owner := .delivering (.sampled s.uptime) out rest next }, [])
  | .sampled now =>
    if s.subscription.hidValid (recordOf out).data out.generation (stamp now) then
      ({ s with owner := .delivering .admitted out rest next }, [.admitted (recordOf out)])
    else ({ s with owner := .deliverAll rest next }, [])
  | .admitted =>
    match s.fifo.claim true (hidFifoIsPriority (byteAt (recordOf out).data 0)) with
    | none => ({ s with owner := .deliverAll rest next }, [])
    | some fifo =>
      ({ s with
        fifo := fifo
        owner := .delivering (.claimed s.fifo.writePos) out rest next }, [])
  | .claimed ticket =>
    ({ s with
      fifo := s.fifo.publish ticket (recordOf out)
      owner := if commits out then .delivering .written out rest next else .deliverAll rest next },
      [.queued ticket (recordOf out)])
  | .written =>
    ({ s.withTracker out.event.trackerId
        ((s.trackers out.event.trackerId).commitRest s.subscription out) with
      owner := .deliverAll rest next }, [])

/-- Entries of another pairing are skipped. -/
def examinedEvents (tracker : BitVec 8) (slot : CacheSlot) (now : ℕ) (s : Service) :
    List ServiceEvent :=
  if (s.trackers tracker).pairingGeneration = s.pairingGenerations tracker then
    [.examined tracker slot now]
  else []

/-- The next piece of `tracker_events_process`. -/
def ownerStep (s : Service) : Service × List ServiceEvent :=
  match s.owner with
  | .idle => ({ s with owner := .draining s.uptime 0 }, [])
  | .draining now i =>
    match s.queue with
    | [] => ({ s with owner := .checking now allChecks }, [])
    | rx :: queue =>
      if i < rxCount then
        ({ s with
          queue := queue
          owner := .processing now i rx }, [])
      else ({ s with owner := .checking now allChecks }, [])
  | .processing now i ⟨rx, _⟩ =>
    let tracker := rx.event.trackerId
    let generation := s.pairingGenerations tracker
    let out := (s.trackers tracker).processRx s.subscription generation rx
    ({ s.withTracker tracker out.1 with owner := .deliverAll out.2 (.drain now (i + 1)) },
      ((s.trackers tracker).rxEvents generation rx).map (.cache tracker s.uptime))
  | .checking _ [] => ({ s with owner := .idle }, [])
  | .checking now ((tracker, slot) :: rest) =>
    let generation := s.pairingGenerations tracker
    let out := (s.trackers tracker).silenceStep s.subscription generation tracker (stamp now) slot
    ({ s.withTracker tracker out.1 with
      owner := .deliverAll (out.2.toList.map Prod.fst) (.check now rest) },
      s.examinedEvents tracker slot now ++
        ((s.trackers tracker).silenceEvents generation (stamp now) slot).map (.cache tracker s.uptime))
  | .delivering stage out rest next => s.deliverStep stage out rest next

/-- The next piece of `send_report` before the submission. -/
def senderStep (s : Service) : Option (Service × List ServiceEvent) :=
  match s.sender with
  | .idle => some ({ s with sender := .peeked s.fifo.peekBatch }, [])
  | .peeked batch => some ({ s with sender := .checking s.uptime [] batch }, [])
  | .checking now done ((ticket, record) :: rest) =>
    -- generation 0 marks ordinary records, which are not checked
    if record.subscriptionGeneration = 0 then
      some ({ s with sender := .checking now (done ++ [some (ticket, record)]) rest }, [])
    else
      let valid := s.subscription.hidValid record.data record.subscriptionGeneration (stamp now)
      some ({ s with
          sender := .checking now (done ++ [if valid then some (ticket, record) else none]) rest },
        [.checked ticket record s.subscription now valid])
  | .checking _ _ [] => none

/-- `hid_device_submit_report` and what follows it. -/
def submit (accepted : Bool) (s : Service) : Option (Service × List ServiceEvent) :=
  match s.sender with
  | .checking _ done [] =>
    if accepted then
      some ({ s with
        fifo := s.fifo.consume done.length
        sender := .idle }, [.submitted done])
    else some ({ s with sender := .idle }, [])
  | _ => none

/-- One step. -/
def step (s : Service) : ServiceOp → Option (Service × List ServiceEvent)
  | .tick ms => some ({ s with uptime := s.uptime + ms }, [])
  | .receive packet now => if now ≤ s.uptime then some (s.receive packet now, []) else none
  | .control args generation now =>
    if now ≤ s.uptime then
      match s.subscription.control args generation (stamp now) with
      | .error _ => some (s, [])
      | .ok (subscription, _) =>
        some ({ s with subscription := subscription }, controlEvents (byteAt args 1) now)
    else none
  | .usbReset => some ({ s with subscription := s.subscription.usbReset }, [.retired])
  | .pairingInvalidate mask => some (s.pairingInvalidate mask, [.retired])
  | .pairingCleanup tracker =>
    let generation := s.pairingGenerations tracker
    some (s.withTracker tracker ((s.trackers tracker).resetPairing generation),
      ((s.trackers tracker).pairingEvents generation).map (.cache tracker s.uptime))
  | .owner => some s.ownerStep
  | .claim priority => (s.fifo.claim false priority).map fun fifo => ({ s with fifo := fifo }, [])
  | .publish ticket data =>
    if s.fifo.slotAt ticket = some (.claimed false) then
      some ({ s with fifo := s.fifo.publish ticket ⟨data, 0⟩ }, [])
    else none
  | .sender => s.senderStep
  | .submit accepted => s.submit accepted

end Service

/-- The service from its static initial values. -/
def serviceSystem : EventSystem Service ServiceOp ServiceEvent where
  init := .init
  step := Service.step

end SlimeReceiver.Events
