import SlimeReceiver.Library.WrappingClock
import SlimeReceiver.Events.Protocol

/-! # The event cache of a tracker

The critical sections of `tracker_events.c` that work on one entry of `trackers`. The fields of
`struct tracker_cache` that `unseen` works on are grouped in `Window`. A receipt time is kept
unbounded in an `RxEvent`, and everything that reads it reads its low 32 bits.

* **`Subscription`** — the host's subscription, and whether a record matches it.
* **`unseen`** — the replay window.
* **`findOperation`**, **`allocateOperation`** — the eight operation entries.
* **`powerNotice`**, **`powerOperationEvidence`**, **`silenceReason`** — the power intent.
* **`processRx`** — the critical section of `process_rx`, stage by stage.
* **`silenceStep`** — the critical section of `tracker_events_process` for one entry. -/

namespace SlimeReceiver.Events

open Function (update)

/-! ## Times and sizes -/

/-- `OP_COUNT`. -/
def opCount : ℕ := 8

/-- `POWER_INTENT_RELEVANCE_MS`. -/
def powerIntentRelevanceMs : ℕ := 20000

/-- `POWER_INTENT_ACTIVITY_MS`. -/
def powerIntentActivityMs : ℕ := 10000

/-- `TRACKER_EVENT_TTL_MS`. -/
def trackerEventTtlMs : ℕ := 15000

/-- `TRACKER_EVENT_CAL_SILENCE_MS`. -/
def calSilenceMs : ℕ := 10000

/-- `TRACKER_EVENT_REST_STALE_MS`. -/
def restStaleMs : ℕ := 15000

/-- `TRACKER_EVENT_LEASE_MS`. -/
def leaseMs : ℕ := 15000

/-! ## Records -/

/-- `struct event_cache`. -/
structure EventCache where
  event : TrackerEvent
  lastRx : BitVec 32
  version : BitVec 32
  notifiedGeneration : BitVec 32
  order : BitVec 32
  firstOrder : BitVec 32
  used : Bool
  terminal : Bool
  stale : Bool

/-- `memset(cache, 0, sizeof(*cache))`. -/
def EventCache.zero : EventCache where
  event := ⟨0, 0, 0, 0, 0, 0, 0, 0, 0⟩
  lastRx := 0
  version := 0
  notifiedGeneration := 0
  order := 0
  firstOrder := 0
  used := false
  terminal := false
  stale := false

/-- `struct power_intent`. -/
structure PowerIntent where
  receivedAt : BitVec 32
  order : BitVec 32
  watermarkOrder : BitVec 32
  sequence : BitVec 16
  phase : BitVec 8
  ordered : Bool

def PowerIntent.zero : PowerIntent := ⟨0, 0, 0, 0, 0, false⟩

/-- The replay window of a tracker. -/
structure Window where
  initialized : Bool
  high : BitVec 16
  highAt : BitVec 32
  order : BitVec 32
  seen : BitVec 64
  deriving DecidableEq, Repr

def Window.zero : Window := ⟨false, 0, 0, 0, 0⟩

/-- `struct tracker_cache`. -/
structure TrackerCache where
  pairingGeneration : BitVec 32
  nonce : BitVec 32
  retiredNonce : BitVec 32
  retiredAt : BitVec 32
  window : Window
  operations : ℕ → EventCache
  /-- `rest[kind == FUSION_REST]`. -/
  rest : Bool → EventCache
  power : PowerIntent

/-- `memset(tracker, 0, sizeof(*tracker))`. -/
def TrackerCache.zero : TrackerCache where
  pairingGeneration := 0
  nonce := 0
  retiredNonce := 0
  retiredAt := 0
  window := .zero
  operations := fun _ => .zero
  rest := fun _ => .zero
  power := .zero

/-- `struct rx_event`. -/
structure RxEvent where
  event : TrackerEvent
  receivedAt : ℕ
  pairingGeneration : BitVec 32
  subscriptionGeneration : BitVec 32

/-- `rx->received_at`. -/
def RxEvent.stamp (rx : RxEvent) : BitVec 32 := SlimeReceiver.stamp rx.receivedAt

/-- `struct delivery`. -/
structure Delivery where
  event : TrackerEvent
  generation : BitVec 32
  receivedAt : BitVec 32
  cacheVersion : BitVec 32
  opcode : BitVec 8
  deriving DecidableEq, Repr

/-- `next_generation`: the counters skip 0. -/
def nextGeneration (value : BitVec 32) : BitVec 32 := if value + 1 = 0 then 1 else value + 1

/-! ## The subscription -/

/-- The subscription of the host. -/
structure Subscription where
  usbGeneration : BitVec 32
  subscriptionGeneration : BitVec 32
  leaseStarted : BitVec 32
  subscriptionFilter : BitVec 8
  subscriptionMask : BitVec 8
  subscribed : Bool
  deriving DecidableEq, Repr

namespace Subscription

/-- The static initial values. -/
def init : Subscription := ⟨1, 1, 0, 255, 0, false⟩

/-- `lease_active`. -/
def leaseActive (now : BitVec 32) (s : Subscription) : Bool :=
  s.subscribed && decide (elapsed now s.leaseStarted < leaseMs)

/-- `matches`. -/
def matchesRecord (tracker kind : BitVec 8) (now : BitVec 32) (s : Subscription) : Bool :=
  s.leaseActive now && (s.subscriptionFilter == 255 || s.subscriptionFilter == tracker) &&
    s.subscriptionMask &&& trackerEventKindFilter kind != 0

/-- `matches(..) ? subscription_generation : 0`. -/
def generationFor (tracker kind : BitVec 8) (now : BitVec 32) (s : Subscription) : BitVec 32 :=
  if s.matchesRecord tracker kind now then s.subscriptionGeneration else 0

end Subscription

/-! ## The replay window -/

/-- `newer`. -/
def newer (a b : BitVec 16) : Bool := decide (0 < (a - b).toInt)

namespace Window

/-- The window head is too old to compare with. -/
def quiet (now : BitVec 32) (w : Window) : Bool :=
  !w.initialized || decide (trackerEventTtlMs ≤ elapsed now w.highAt)

/-- The window restarted at `seq`. -/
def reanchor (seq : BitVec 16) (now : BitVec 32) (w : Window) : Window where
  initialized := true
  high := seq
  highAt := now
  order := w.order + 65536
  seen := 1

/-- The window moved forward to `seq`. -/
def advance (seq : BitVec 16) (now : BitVec 32) (w : Window) : Window :=
  let shift := seq - w.high
  { w with
    high := seq
    highAt := now
    order := w.order + shift.setWidth 32
    seen := if 64 ≤ shift.toNat then 1 else w.seen <<< shift.toNat ||| 1 }

/-- How far `seq` is behind the head. -/
def age (seq : BitVec 16) (w : Window) : ℕ := (w.high - seq).toNat

/-- The bitmap or its length rules `seq` out. -/
def covers (seq : BitVec 16) (w : Window) : Bool :=
  decide (64 ≤ w.age seq) || w.seen.getLsbD (w.age seq)

/-- `seen |= UINT64_C(1) << age`. -/
def mark (seq : BitVec 16) (w : Window) : Window :=
  { w with seen := w.seen ||| (1 : BitVec 64) <<< w.age seq }

/-- `order - (uint16_t)(high - event_seq)`: the expanded order of `seq`. -/
def orderOf (seq : BitVec 16) (w : Window) : BitVec 32 := w.order - (w.high - seq).setWidth 32

end Window

/-- The watermark in the coordinate of a window restarted at `seq` with head order `order`. -/
def PowerIntent.rebase (order : BitVec 32) (seq : BitVec 16) (p : PowerIntent) : PowerIntent :=
  if p.ordered then { p with watermarkOrder := order + (p.sequence - seq).signExtend 32 } else p

namespace TrackerCache

/-- `unseen`. -/
def unseen (seq : BitVec 16) (now : BitVec 32) (c : TrackerCache) : TrackerCache × Bool :=
  if c.window.quiet now then
    ({ c with
      window := c.window.reanchor seq now
      -- A delayed notice older than a cancellation remains older in the new coordinate.
      power := c.power.rebase (c.window.reanchor seq now).order seq }, true)
  else if newer seq c.window.high then ({ c with window := c.window.advance seq now }, true)
  else if c.window.covers seq then (c, false)
  else ({ c with window := c.window.mark seq }, true)

/-! ## Entries -/

/-- `find_operation`: the slot of an operation. -/
def findOperation (e : TrackerEvent) (c : TrackerCache) : Option ℕ :=
  (List.range opCount).find? fun i => (c.operations i).used &&
    (c.operations i).event.operationId == e.operationId && (c.operations i).event.kind == e.kind

/-- Entry `op` is evicted rather than entry `oldest`. -/
def evictsBefore (now : BitVec 32) (op oldest : EventCache) : Bool :=
  (op.terminal && !oldest.terminal) ||
    (op.terminal == oldest.terminal && decide (elapsed now oldest.lastRx < elapsed now op.lastRx))

/-- The loop of `allocate_operation` over the remaining slots. -/
def allocateFrom (now : BitVec 32) (operations : ℕ → EventCache) : Option ℕ → List ℕ → ℕ
  | oldest, [] => oldest.getD 0
  | oldest, i :: rest =>
    if !(operations i).used then i
    else
      match oldest with
      | none => allocateFrom now operations (some i) rest
      | some j =>
        allocateFrom now operations (if evictsBefore now (operations i) (operations j) then some i
          else some j) rest

/-- `allocate_operation`: a free slot, else the one to evict. -/
def allocateOperation (now : BitVec 32) (c : TrackerCache) : ℕ :=
  allocateFrom now c.operations none (List.range opCount)

end TrackerCache

/-- The entries of a tracker. -/
inductive CacheSlot
  | operation (i : ℕ)
  | rest (fusion : Bool)
  deriving DecidableEq, Repr

/-- The entries in the order of the loops. -/
def allSlots : List CacheSlot := (List.range opCount).map CacheSlot.operation ++ [CacheSlot.rest false, .rest true]

/-- The silence after which an entry is reported. -/
def CacheSlot.timeout : CacheSlot → ℕ
  | .operation _ => calSilenceMs
  | .rest _ => restStaleMs

namespace TrackerCache

/-- The content of an entry. -/
def entry (slot : CacheSlot) (c : TrackerCache) : EventCache :=
  match slot with
  | .operation i => c.operations i
  | .rest fusion => c.rest fusion

/-- An entry replaced. -/
def withEntry (slot : CacheSlot) (cache : EventCache) (c : TrackerCache) : TrackerCache :=
  match slot with
  | .operation i => { c with operations := update c.operations i cache }
  | .rest fusion => { c with rest := update c.rest fusion cache }

end TrackerCache

/-! ## Observations -/

/-- `observation`. -/
def observation (sub : Subscription) (cache : EventCache) (reason : BitVec 8) (now : BitVec 32) :
    Delivery :=
  let unknown : TrackerEvent := { cache.event with outcome := calOutcomeUnknown }
  let event :=
    if unknown.event = calEventState then
      { unknown with
        phase := if unknown.kind = kindFusionRest then fusionRestUnknown else trackerRestUnknown }
    else
      { unknown with
        event := calEventEnd
        detail := reason }
  { event := event
    generation := sub.generationFor event.trackerId event.kind now
    receivedAt := now
    cacheVersion := 0
    opcode := hidOpTrackerObservation }

/-! ## The power intent -/

/-- The phases that announce something. -/
def announces (phase : BitVec 8) : Bool :=
  phase == powerWillWom || phase == powerWillShutdown || phase == powerWillReboot

namespace PowerIntent

/-- `phase && now - received_at >= POWER_INTENT_RELEVANCE_MS`. -/
def expired (now : BitVec 32) (p : PowerIntent) : Bool :=
  p.phase != 0 && decide (powerIntentRelevanceMs ≤ elapsed now p.receivedAt)

/-- An expired intent is dropped. -/
def dropExpired (now : BitVec 32) (p : PowerIntent) : PowerIntent :=
  if p.expired now then { p with phase := 0 } else p

/-- The `switch` of `power_notice`. -/
def noticePhase (phase : BitVec 8) (order now : BitVec 32) (p : PowerIntent) : PowerIntent :=
  if announces phase then
    if p.phase ≠ phase then
      { p with
        receivedAt := now
        order := order
        phase := phase }
    else p
  else if phase = powerWomCancelled then
    if p.phase = powerWillWom then { p with phase := 0 } else p
  else if phase = powerBoot ∨ phase = powerWake ∨ phase = powerWatchdogReset then
    { p with phase := 0 }
  else p

/-- `power_notice`. -/
def powerNotice (e : TrackerEvent) (order now : BitVec 32) (p : PowerIntent) : PowerIntent :=
  if p.ordered ∧ (order - p.watermarkOrder).toInt ≤ 0 then p
  else
    ({ p with
      ordered := true
      sequence := e.eventSeq
      watermarkOrder := order } : PowerIntent).dropExpired now |>.noticePhase e.phase order now

/-- `power_operation_evidence`. -/
def powerOperationEvidence (e : TrackerEvent) (order now : BitVec 32) (p : PowerIntent) :
    PowerIntent :=
  if p.phase = 0 then p
  else if powerIntentRelevanceMs ≤ elapsed now p.receivedAt ∨
      (0 < (order - p.order).toInt ∧ (e.event = calEventAccepted ∨ e.event = calEventBegin)) ∨
      powerIntentActivityMs < elapsed now p.receivedAt then
    { p with phase := 0 }
  else p

/-- `silence_reason`, without its effect on the intent, which is `dropExpired`. -/
def silenceReason (cache : EventCache) (now : BitVec 32) (p : PowerIntent) : BitVec 8 :=
  let q := p.dropExpired now
  if q.phase = 0 ∨ 0 < (cache.firstOrder - q.order).toInt then calReasonTransportSilence
  else if q.phase = powerWillReboot then calReasonReset
  else calReasonPowerDown

end PowerIntent

/-! ## Reception -/

/-- `e->event == CAL_EVENT_STATE`. -/
def TrackerEvent.isState (e : TrackerEvent) : Bool := e.event == calEventState

/-- A calibration step that reports storage; it is delivered but not cached. -/
def TrackerEvent.isStorage (e : TrackerEvent) : Bool :=
  trackerEventIsCalibration e.kind && e.event == calEventStep && e.phase == calPhaseStorage

/-- `END` or `REJECTED`. -/
def TrackerEvent.isTerminal (e : TrackerEvent) : Bool :=
  e.event == calEventEnd || e.event == calEventRejected

/-- The event is kept in an entry. -/
def TrackerEvent.isCached (e : TrackerEvent) : Bool :=
  e.isState || (trackerEventIsCalibration e.kind && !e.isStorage)

/-- The delivery of a received event. -/
def RxEvent.delivery (rx : RxEvent) (opcode : BitVec 8) (version : BitVec 32) : Delivery where
  event := rx.event
  generation := rx.subscriptionGeneration
  receivedAt := rx.stamp
  cacheVersion := version
  opcode := opcode

/-- An entry that a session change reports: a running operation or a rest state that is not stale. -/
def EventCache.outstanding (slot : CacheSlot) (cache : EventCache) : Bool :=
  match slot with
  | .operation _ => cache.used && !cache.terminal
  | .rest _ => cache.used && !cache.stale

namespace TrackerCache

/-- `reset_pairing_cache`. -/
def resetPairing (generation : BitVec 32) (c : TrackerCache) : TrackerCache :=
  if c.pairingGeneration = generation then c
  else { zero with pairingGeneration := generation }

/-- The event is a delayed one of the session that was left last. -/
def retires (rx : RxEvent) (c : TrackerCache) : Bool :=
  rx.event.nonce == c.retiredNonce && decide (elapsed rx.stamp c.retiredAt < trackerEventTtlMs)

/-- The entries a session change reports. -/
def outstandingSlots (c : TrackerCache) : List CacheSlot :=
  allSlots.filter fun slot => (c.entry slot).outstanding slot

/-- What `process_rx` puts out for the session that is left. -/
def sessionObservations (sub : Subscription) (rx : RxEvent) (c : TrackerCache) : List Delivery :=
  if c.nonce = 0 then []
  else c.outstandingSlots.map fun slot =>
    observation sub (c.entry slot) calReasonSessionChanged rx.stamp

/-- The cache at the start of the session of `rx`. -/
def enterSession (rx : RxEvent) (c : TrackerCache) : TrackerCache :=
  { c with
    retiredNonce := if c.nonce = 0 then c.retiredNonce else c.nonce
    retiredAt := if c.nonce = 0 then c.retiredAt else rx.stamp
    nonce := rx.event.nonce
    window := { c.window with initialized := false }
    operations := fun _ => .zero
    rest := fun _ => .zero
    power := .zero }

/-- The entry an event belongs to, if there is one. -/
def lookup (e : TrackerEvent) (c : TrackerCache) : Option CacheSlot :=
  if e.isState then some (.rest (e.kind == kindFusionRest))
  else (c.findOperation e).map .operation

/-- The event repeats the newest one of its entry. -/
def isHeartbeat (e : TrackerEvent) (c : TrackerCache) : Option CacheSlot → Bool
  | none => false
  | some slot => (c.entry slot).used && (c.entry slot).event == e

/-- The intent after an event of a calibration. -/
def withEvidence (e : TrackerEvent) (order now : BitVec 32) (c : TrackerCache) : TrackerCache :=
  { c with power := c.power.powerOperationEvidence e order now }

/-- A heartbeat of an entry. -/
def refresh (rx : RxEvent) (slot : CacheSlot) (c : TrackerCache) : TrackerCache × List Delivery :=
  let cache := c.entry slot
  let noted := if trackerEventIsCalibration rx.event.kind then
    c.withEvidence rx.event cache.order rx.stamp else c
  if cache.stale && rx.event.isState then
    (noted.withEntry slot { cache with
      lastRx := rx.stamp
      stale := false
      notifiedGeneration := 0 }, [rx.delivery hidOpTrackerObservation cache.version])
  else
    (noted.withEntry slot { cache with
      lastRx := rx.stamp
      stale := false }, [])

/-- The entry written for an event. -/
def freshEntry (rx : RxEvent) (order firstOrder version : BitVec 32) : EventCache where
  event := rx.event
  lastRx := rx.stamp
  version := version
  notifiedGeneration := 0
  order := order
  firstOrder := firstOrder
  used := true
  terminal := rx.event.isTerminal
  stale := false

/-- The entry an accepted event is stored in. -/
def targetOf (rx : RxEvent) (slot : Option CacheSlot) (c : TrackerCache) : CacheSlot :=
  slot.getD (.operation (c.allocateOperation rx.stamp))

/-- `replacing || !cache->used`. -/
def startsEntry (rx : RxEvent) (slot : Option CacheSlot) (c : TrackerCache) : Bool :=
  slot.isNone || !(c.entry (c.targetOf rx slot)).used

/-- An accepted event is stored: it starts an entry, or it is newer than the entry and does not
roll back a terminal result. -/
def stores (rx : RxEvent) (slot : Option CacheSlot) (order : BitVec 32) (c : TrackerCache) : Bool :=
  rx.event.isCached && (c.startsEntry rx slot ||
    (decide (0 < (order - (c.entry (c.targetOf rx slot)).order).toInt) &&
      (!(c.entry (c.targetOf rx slot)).terminal || rx.event.isTerminal)))

/-- The storing part of `process_rx`. -/
def store (rx : RxEvent) (slot : Option CacheSlot) (order : BitVec 32) (c : TrackerCache) :
    TrackerCache × List Delivery :=
  if c.stores rx slot order then
    let cache := c.entry (c.targetOf rx slot)
    let version := nextGeneration cache.version
    let firstOrder := if c.startsEntry rx slot then order else cache.firstOrder
    let noted := if rx.event.isState then c else c.withEvidence rx.event order rx.stamp
    (noted.withEntry (c.targetOf rx slot) (freshEntry rx order firstOrder version),
      [rx.delivery hidOpTrackerEvent version])
  else (c, [rx.delivery hidOpTrackerEvent 0])

/-- A rest state that is not newer than the one in its entry. -/
def outdated (e : TrackerEvent) (slot : Option CacheSlot) (order : BitVec 32) (c : TrackerCache) :
    Bool :=
  e.isState && slot.any fun slot =>
    (c.entry slot).used && decide ((order - (c.entry slot).order).toInt ≤ 0)

/-- The intent after an accepted event. -/
def withNotice (e : TrackerEvent) (order now : BitVec 32) (c : TrackerCache) : TrackerCache :=
  if e.kind = kindPower then { c with power := c.power.powerNotice e order now } else c

/-- An event that is not a heartbeat. -/
def accept (rx : RxEvent) (slot : Option CacheSlot) (c : TrackerCache) :
    TrackerCache × List Delivery :=
  let checked := c.unseen rx.event.eventSeq rx.stamp
  if checked.2 then
    let order := checked.1.window.orderOf rx.event.eventSeq
    if checked.1.outdated rx.event slot order then (checked.1, [])
    else (checked.1.withNotice rx.event order rx.stamp).store rx slot order
  else (checked.1, [])

/-- `process_rx` within the session of the event. -/
def processSession (rx : RxEvent) (c : TrackerCache) : TrackerCache × List Delivery :=
  let slot := c.lookup rx.event
  if c.isHeartbeat rx.event slot then
    match slot with
    | some slot => c.refresh rx slot
    | none => (c, [])
  else c.accept rx slot

/-- The critical section of `process_rx`, with the tracker's pairing generation. -/
def processRx (sub : Subscription) (generation : BitVec 32) (rx : RxEvent) (c : TrackerCache) :
    TrackerCache × List Delivery :=
  if rx.pairingGeneration ≠ generation then (c, [])
  else
    let current := c.resetPairing generation
    if current.nonce = rx.event.nonce then current.processSession rx
    else if current.retires rx then (current, [])
    else
      let entered := (current.enterSession rx).processSession rx
      (entered.1, current.sessionObservations sub rx ++ entered.2)

/-! ## Silence -/

/-- The entry has been silent for its timeout. -/
def silent (now : BitVec 32) (slot : CacheSlot) (c : TrackerCache) : Bool :=
  (c.entry slot).used && !(c.entry slot).terminal && !(c.entry slot).stale &&
    decide (slot.timeout ≤ elapsed now (c.entry slot).lastRx)

/-- A current rest state that the subscription has not been told. -/
def unnotified (sub : Subscription) (tracker : BitVec 8) (now : BitVec 32) (slot : CacheSlot)
    (c : TrackerCache) : Bool :=
  match slot with
  | .operation _ => false
  | .rest fusion => (c.rest fusion).used && !(c.rest fusion).stale &&
      sub.matchesRecord tracker (c.rest fusion).event.kind now &&
      (c.rest fusion).notifiedGeneration != sub.subscriptionGeneration

/-- The reason an observation of silence carries, and the intent it leaves. -/
def reasonFor (now : BitVec 32) (slot : CacheSlot) (c : TrackerCache) : BitVec 8 × PowerIntent :=
  match slot with
  | .operation i => (c.power.silenceReason (c.operations i) now, c.power.dropExpired now)
  | .rest _ => (calReasonTransportSilence, c.power)

/-- The critical section of `tracker_events_process` for one entry: what it delivers, and whether
that is logged. -/
def silenceStep (sub : Subscription) (generation : BitVec 32) (tracker : BitVec 8) (now : BitVec 32)
    (slot : CacheSlot) (c : TrackerCache) : TrackerCache × Option (Delivery × Bool) :=
  if c.pairingGeneration ≠ generation then (c, none)
  else if c.silent now slot then
    let stale : EventCache := { c.entry slot with stale := true }
    (({ c with power := (c.reasonFor now slot).2 } : TrackerCache).withEntry slot stale,
      some (observation sub stale (c.reasonFor now slot).1 now, true))
  else if c.unnotified sub tracker now slot then
    (c, some (⟨(c.entry slot).event, sub.subscriptionGeneration, (c.entry slot).lastRx,
      (c.entry slot).version, hidOpTrackerObservation⟩, false))
  else (c, none)

/-- The end of `deliver`: the subscription has been told the rest state, if it is still current. -/
def commitRest (sub : Subscription) (out : Delivery) (c : TrackerCache) : TrackerCache :=
  let fusion := out.event.kind == kindFusionRest
  let cache := c.rest fusion
  if cache.used ∧ cache.stale = false ∧ cache.version = out.cacheVersion ∧
      out.generation = sub.subscriptionGeneration ∧ cache.event = out.event then
    c.withEntry (.rest fusion) { cache with notifiedGeneration := out.generation }
  else c

end TrackerCache

end SlimeReceiver.Events
