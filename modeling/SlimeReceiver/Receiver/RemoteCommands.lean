import SlimeReceiver.Library.EventSystem
import SlimeReceiver.Link.TestAll
import SlimeReceiver.Tdma.Roster

/-! # Remote commands

Remote commands next to the operations that reset slots. A call of a command function takes one step for each of its
critical sections, and for each store made outside one; the calls interleave with one another, with the packets of
the trackers and with `esb_add_pair`, `esb_pop_pair` and `esb_clear`, and wait only for a mutex. An active scan is one
step: a packet that comes in the middle of it is told from one before or after it only by its own slot.

* **`Command`**, **`Place`** — the calls, and where they are.
* **`RevocationState`**, **`RevocationEvent`** — the slots, the test-all policy and the calls; what they report.
* **`proceed`** — the next step of a call.
* **`revocationSystem`** — the system. -/

namespace SlimeReceiver

open Function (update)

namespace Revocation

/-! ## The code -/

/-- `REMOTE_COMMAND_ACTIVE_SCAN_MS`. -/
def remoteCommandActiveScanMs : ℕ := 1000

/-- A call of one of the command functions; `...All` are the all-target ones. -/
inductive Command
  /-- `esb_send_remote_command_arg`. -/
  | flag (id : ℕ) (flag : BitVec 8)
  | sens (id : ℕ)
  | sensAuto (id : ℕ)
  | test (id : ℕ) (on : Bool)
  | wom (id : ℕ) (minutes : BitVec 16)
  | flagAll (flag : BitVec 8)
  | sensAutoAll
  | testAll (on : Bool)
  | womAll (minutes : BitVec 16)
deriving DecidableEq

/-- Flags the generic functions refuse. -/
def refusedFlag (flag : BitVec 8) : Bool :=
  flag == pongFlagSetChannel || flag == pongFlagClearChannel || flag == pongFlagWomControl ||
    flag == pingFlagWomResult || flag == pingFlagWomError

/-- Times a WOM command refuses. -/
def refusedMinutes (minutes : BitVec 16) : Bool :=
  decide (womTimeoutMaxMinutes < minutes) && minutes != womTimeoutClear && minutes != womEnter

/-- The checks at the entry of the functions. -/
def Command.refused : Command → Bool
  | .flag id value => refusedFlag value || decide (maxTrackers ≤ id)
  | .sens id | .sensAuto id | .test id _ => decide (maxTrackers ≤ id)
  | .wom id minutes => refusedMinutes minutes || decide (maxTrackers ≤ id)
  | .flagAll value => refusedFlag value
  | .womAll minutes => refusedMinutes minutes
  | .sensAutoAll | .testAll _ => false

/-- Commands for all active trackers. -/
def Command.all : Command → Bool
  | .flagAll _ | .sensAutoAll | .testAll _ | .womAll _ => true
  | _ => false

/-- The flag a test command publishes: `ESB_PONG_FLAG_TEST_MODE_ON` or `_OFF`. -/
abbrev testFlag (on : Bool) : BitVec 8 := Receiver.testFlag on

/-- Where a call is. -/
inductive Place
  | idle
  /-- Entered at `start`; before the critical section, or the active scan. -/
  | calling (c : Command) (start : ℕ)
  /-- In `esb_publish_flag_mask`; `ids` are still to be written. -/
  | flagging (flag : BitVec 8) (ids : List ℕ)
  /-- `test_all_mutex` is held; before the guard, the token and the scan. -/
  | testGuarding (on : Bool)
  | testCounting (on : Bool)
  | testStarting (on : Bool) (gen : BitVec 32)
  | testScanning (on : Bool) (gen : BitVec 32) (start : ℕ)
  /-- Before the final critical section. -/
  | testPublishing (on : Bool) (gen : BitVec 32) (ids : List ℕ)
  /-- Superseded; the guard is still to be released. -/
  | testAborting
  | testUnlocking
deriving DecidableEq

/-- What the holder of `tracker_store_lock` still has to do. -/
inductive StoreWork
  | none
  /-- The forced `tdma_recalculate` after a removal. -/
  | recalculate
  /-- `test_all_reconcile(now)` found the policy in force and is about to read `test_all_enabled`. -/
  | reconcile (now : ℕ)
  /-- It is about to enter its critical section. -/
  | reconcileQueued (now : ℕ) (enabled : Bool)
deriving DecidableEq

/-- What `tracker_slot_reset` resets, as far as commands are concerned. -/
structure SlotState where
  trackerRemoteCommand : BitVec 8
  lastPacketTime : ℕ
  testAllReadyAfterMs : BitVec 32
  /-- The tracker is in `tdma_shadow_ever_ping_mask` or `tdma_shadow_ever_data_mask`. -/
  evidence : Bool

def SlotState.zero : SlotState := ⟨pongFlagNormal, 0, 0, false⟩

/-- The shared variables and the calls; each call has a number of its own. -/
structure RevocationState where
  uptime : ℕ
  roster : TrackerRoster
  slots : ℕ → SlotState
  tdmaActiveMask : TrackerMask
  testAllStateValid : Bool
  testAllEnabled : Bool
  testAllBroadcasting : Bool
  testAllConfirmedMask : TrackerMask
  testAllGeneration : BitVec 32
  testAllMutex : Option ℕ
  storeWork : StoreWork
  next : ℕ
  calls : ℕ → Place

/-- At boot, with the roster as restored from storage. -/
def RevocationState.boot (roster : TrackerRoster) : RevocationState where
  uptime := 0
  roster
  slots _ := .zero
  tdmaActiveMask := 0
  testAllStateValid := false
  testAllEnabled := false
  testAllBroadcasting := false
  testAllConfirmedMask := 0
  testAllGeneration := 0
  testAllMutex := none
  storeWork := .none
  next := 0
  calls _ := .idle

/-- The visible events. A caller is the number of a call, or none for the sticky policy. -/
inductive RevocationEvent
  | requested (k : ℕ)
  /-- The target selection of the caller has found `id`. -/
  | selected (caller : Option ℕ) (id : ℕ)
  /-- A packet of the occupant of `id`. -/
  | packet (id : ℕ)
  | reset (id : ℕ)
  | published (caller : Option ℕ) (id : ℕ) (flag : BitVec 8)
  /-- A pending command is confirmed, cancelled or parked. -/
  | withdrawn (id : ℕ)
deriving DecidableEq

/-- The steps. -/
inductive RevocationOp
  | elapse (ms : ℕ)
  /-- A data packet, and a PING, of a tracker. -/
  | data (id : ℕ) (onOwnPipe : Bool)
  | ping (id : ℕ) (onOwnPipe : Bool)
  /-- A PING confirms a command or a tracker restarts, a WOM command ends, an OTA abort is cleared. -/
  | withdraw (id : ℕ)
  /-- A confirmation enters `test_all_confirmed_mask`, or leaves it. -/
  | mark (id : ℕ) (confirmed : Bool)
  /-- A join grace. -/
  | grace (id : ℕ) (readyAfter : BitVec 32)
  | addPair (addr : ℕ) (written : Bool)
  | popPair (written : Bool)
  | clear (written : Bool)
  /-- `tdma_recalculate` publishes a layout with these members. -/
  | layout (members : TrackerMask)
  | reconcile
  | request (c : Command)
  /-- A call goes on. -/
  | call (k : ℕ)

abbrev Stepped := Option (RevocationState × List RevocationEvent)

namespace RevocationState

variable (s : RevocationState)

/-- A tracker is stored under `id`. -/
def stored (id : ℕ) : Bool := decide (id < s.roster.storedTrackers) && s.roster.storedTrackerAddr id != 0

/-- The trackers a target selection finds, in the order of its loop. -/
def selection (p : ℕ → Bool) : List ℕ := (List.range maxTrackers).filter fun id => s.stored id && p id

/-- `esb_scan_active_mask`. -/
def scanActiveMask (start : ℕ) : List ℕ := s.selection fun id => decide (start ≤ (s.slots id).lastPacketTime)

/-- The selection of `esb_send_remote_command_sens_auto`, whose clock reading may be older than the packet: the
difference is unsigned. -/
def sensAutoActive (id now : ℕ) : Bool :=
  s.stored id && decide (0 < (s.slots id).lastPacketTime) && decide ((s.slots id).lastPacketTime ≤ now) &&
    decide (now - (s.slots id).lastPacketTime ≤ pingTimeoutMs)

def withPlace (k : ℕ) (place : Place) : RevocationState := { s with calls := update s.calls k place }

def withSlot (id : ℕ) (slot : SlotState) : RevocationState := { s with slots := update s.slots id slot }

/-- The stores of a publication. -/
def publish (ids : List ℕ) (flag : BitVec 8) : RevocationState :=
  { s with slots := fun id =>
      if id ∈ ids then { s.slots id with trackerRemoteCommand := flag } else s.slots id }

/-- `tracker_slot_reset` for some ids. -/
def trackerSlotReset (ids : List ℕ) : RevocationState :=
  { s with
    slots := fun id => if id ∈ ids then .zero else s.slots id
    testAllConfirmedMask := ids.foldl clearBit s.testAllConfirmedMask }

/-- A test command takes the next generation. -/
def bump : RevocationState := { s with testAllGeneration := s.testAllGeneration + 1 }

/-- `test_all_invalidate`. -/
def testAllInvalidate : RevocationState :=
  { s with
    testAllStateValid := false
    testAllConfirmedMask := 0
    testAllBroadcasting := false }

/-- `tracker_store_lock` is free. -/
def storeFree : Bool := s.storeWork == .none

end RevocationState

/-! ### The roster -/

/-- `esb_add_pair` stores a new tracker. -/
def adds (addr : ℕ) (written : Bool) (s : RevocationState) : Bool :=
  let count := s.roster.storedTrackers
  decide (count < maxTrackers) && trackerRosterAddressValid addr && s.roster.storeReady &&
    !(List.range count).any (fun i => s.roster.storedTrackerAddr i == addr) &&
    (trackerRosterSave (count + 1) (update s.roster.storedTrackerAddr count addr) written).isOk

/-- `esb_pop_pair` removes a tracker. -/
def removes (written : Bool) (s : RevocationState) : Bool :=
  let id := s.roster.storedTrackers - 1
  s.roster.storeReady && s.roster.storedTrackers != 0 &&
    (trackerRosterSave id (update s.roster.storedTrackerAddr id 0) written).isOk

/-- `esb_clear` empties the roster. -/
def clears (written : Bool) : Bool := (trackerRosterSave 0 (fun _ => 0) written).isOk

theorem room_of_adds {addr : ℕ} {written : Bool} {s : RevocationState} (h : adds addr written s = true) :
    s.roster.storedTrackers < maxTrackers := by
  simp only [adds, Bool.and_eq_true, decide_eq_true_eq] at h
  exact h.1.1.1.1

/-- The roster `esb_add_pair` leaves with a new tracker. -/
def withAdded (addr : ℕ) (r : TrackerRoster) (h : r.storedTrackers < maxTrackers) : TrackerRoster where
  storedTrackers := r.storedTrackers + 1
  storedTrackerAddr := update r.storedTrackerAddr r.storedTrackers addr
  storeReady := r.storeReady
  stored_le := h

/-- The roster `esb_pop_pair` leaves. -/
def withoutLast (r : TrackerRoster) : TrackerRoster where
  storedTrackers := r.storedTrackers - 1
  storedTrackerAddr := update r.storedTrackerAddr (r.storedTrackers - 1) 0
  storeReady := r.storeReady
  stored_le := (Nat.sub_le _ _).trans r.stored_le

/-- The roster `esb_clear` leaves. -/
def emptyRoster : TrackerRoster := ⟨0, fun _ => 0, true, Nat.zero_le _⟩

/-- The trackers whose slots a step resets. -/
def resetIds (s : RevocationState) : RevocationOp → List ℕ
  | .addPair addr written => if adds addr written s then [s.roster.storedTrackers] else []
  | .popPair written => if removes written s then [s.roster.storedTrackers - 1] else []
  | .clear written => if clears written then List.range maxTrackers else []
  | _ => []

/-- The critical section of `esb_add_pair`. -/
def addPair (addr : ℕ) (written : Bool) (s : RevocationState) : Stepped :=
  if !s.storeFree then none
  else if h : adds addr written s = true then
    some ({ s.trackerSlotReset [s.roster.storedTrackers] with
      roster := withAdded addr s.roster (room_of_adds h) }, [.reset s.roster.storedTrackers])
  else some (s, [])

/-- The critical section of `esb_pop_pair`. -/
def popPair (written : Bool) (s : RevocationState) : Stepped :=
  if !s.storeFree then none
  else if removes written s then
    some ({ s.trackerSlotReset [s.roster.storedTrackers - 1] with
      roster := withoutLast s.roster
      storeWork := .recalculate }, [.reset (s.roster.storedTrackers - 1)])
  else some (s, [])

/-- The critical section of `esb_clear`. -/
def clear (written : Bool) (s : RevocationState) : Stepped :=
  if !s.storeFree then none
  else if clears written then
    some ({ s.bump.testAllInvalidate.trackerSlotReset (List.range maxTrackers) with
      testAllEnabled := false
      roster := emptyRoster
      storeWork := .recalculate }, (List.range maxTrackers).map .reset)
  else some (s, [])

/-! ### The calls -/

/-- The stores of a publication and what they report. -/
def issue (caller : Option ℕ) (ids : List ℕ) (value : BitVec 8) (s : RevocationState) :
    RevocationState × List RevocationEvent :=
  (s.publish ids value, ids.map (.published caller · value))

/-- A command that publishes to the trackers it selects under the same lock. -/
def issueSelected (k : ℕ) (ids : List ℕ) (value : BitVec 8) (s : RevocationState) : Stepped :=
  let (s', es) := issue (some k) ids value s
  some (s'.withPlace k .idle, ids.map (.selected (some k)) ++ es)

/-- A single-target command. -/
def issueSingle (k id : ℕ) (value : BitVec 8) (s : RevocationState) : Stepped :=
  let (s', es) := issue (some k) [id] value s
  some (s'.withPlace k .idle, es)

/-- The active scan of an all-target command is over. -/
def scanned (start : ℕ) (s : RevocationState) : Bool :=
  decide (start + remoteCommandActiveScanMs ≤ s.uptime) && s.storeFree

/-- The critical section of a command, or its selection, or the entry of an all-target test command. -/
def callStep (k : ℕ) (c : Command) (start : ℕ) (s : RevocationState) : Stepped :=
  match c with
  | .flag id value => issueSingle k id value s
  | .sens id => issueSingle k id pongFlagSensSet s
  | .sensAuto id =>
    if !s.storeFree then none
    else issueSelected k (if s.sensAutoActive id start then [id] else []) pongFlagSensAuto s
  | .test id on => issueSingle k id (testFlag on) s.bump.testAllInvalidate
  | .wom id _ =>
    if !s.storeFree then none
    else if s.stored id then issueSingle k id pongFlagWomControl s
    else some (s.withPlace k .idle, [])
  | .flagAll value =>
    if scanned start s then
      some (s.withPlace k (.flagging value (s.scanActiveMask start)),
        (s.scanActiveMask start).map (.selected (some k)))
    else none
  | .sensAutoAll => if scanned start s then issueSelected k (s.scanActiveMask start) pongFlagSensAuto s else none
  | .womAll _ => if scanned start s then issueSelected k (s.scanActiveMask start) pongFlagWomControl s else none
  | .testAll on =>
    if s.testAllMutex = none then
      some ({ s with testAllMutex := some k }.withPlace k (.testGuarding on), [])
    else none

/-- The slots a test publication may write: idle, and with their grace over. -/
def testReady (now id : ℕ) (s : RevocationState) : Bool :=
  (s.slots id).trackerRemoteCommand == pongFlagNormal &&
    !Receiver.withheld now (s.slots id).testAllReadyAfterMs

/-- The policy an all-target test command installs. -/
def installPolicy (on : Bool) (s : RevocationState) : RevocationState :=
  { s with
    testAllStateValid := true
    testAllEnabled := on
    testAllConfirmedMask := 0
    slots := fun id => { s.slots id with
      testAllReadyAfterMs := Receiver.clearExpired s.uptime (s.slots id).testAllReadyAfterMs }
    testAllBroadcasting := false }

/-- The final critical section of an all-target test command that is not superseded. -/
def testPublish (k : ℕ) (on : Bool) (ids : List ℕ) (s : RevocationState) : Stepped :=
  let installed := installPolicy on s
  let (s', es) := issue (some k) (ids.filter (testReady s.uptime · installed)) (testFlag on) installed
  some (s'.withPlace k .testUnlocking, es)

/-- The next step of a call. -/
def proceed (k : ℕ) (s : RevocationState) : Stepped :=
  match s.calls k with
  | .idle => none
  | .calling c start => callStep k c start s
  | .flagging _ [] => some (s.withPlace k .idle, [])
  | .flagging value (id :: ids) =>
    let (s', es) := issue (some k) [id] value s
    some (s'.withPlace k (.flagging value ids), es)
  | .testGuarding on => some ({ s with testAllBroadcasting := true }.withPlace k (.testCounting on), [])
  | .testCounting on => some (s.bump.withPlace k (.testStarting on (s.testAllGeneration + 1)), [])
  | .testStarting on gen => some (s.withPlace k (.testScanning on gen s.uptime), [])
  | .testScanning on gen start =>
    if scanned start s then
      some (s.withPlace k (.testPublishing on gen (s.scanActiveMask start)),
        (s.scanActiveMask start).map (.selected (some k)))
    else none
  | .testPublishing on gen ids =>
    if s.testAllGeneration ≠ gen then some (s.withPlace k .testAborting, [])
    else testPublish k on ids s
  | .testAborting => some ({ s with testAllBroadcasting := false }.withPlace k .testUnlocking, [])
  | .testUnlocking => some ({ s with testAllMutex := none }.withPlace k .idle, [])

/-- A call of a command function; a refused one returns at once. -/
def request (c : Command) (s : RevocationState) : Stepped :=
  if c.refused then some (s, [])
  else some ({ s with next := s.next + 1 }.withPlace s.next (.calling c s.uptime), [.requested s.next])

/-! ### The layout and the sticky policy -/

/-- The trackers of a layout, in the order of the loops. -/
def members (layout : TrackerMask) : List ℕ := (List.range maxTrackers).filter (hasBit layout)

/-- `tdma_recalculate` publishes a layout: stored trackers there is evidence of. -/
def publishLayout (layout : TrackerMask) (s : RevocationState) : Stepped :=
  if s.storeWork ≠ .none ∧ s.storeWork ≠ .recalculate then none
  else if (List.range maxTrackers).all fun id =>
      !hasBit layout id || (decide (id < s.roster.storedTrackers) && (s.slots id).evidence) then
    some ({ s with
      tdmaActiveMask := layout
      storeWork := .none }, (members layout).map (.selected none))
  else none

/-- The slots `test_all_reconcile` writes. -/
def reconcileIds (now : ℕ) (s : RevocationState) : List ℕ :=
  (members (s.tdmaActiveMask &&& ~~~s.testAllConfirmedMask)).filter (testReady now · s)

/-- The next step of `test_all_reconcile`. -/
def reconcile (s : RevocationState) : Stepped :=
  match s.storeWork with
  | .none =>
    if s.testAllStateValid && !s.testAllBroadcasting then
      some ({ s with storeWork := .reconcile s.uptime }, [])
    else some (s, [])
  | .reconcile now => some ({ s with storeWork := .reconcileQueued now s.testAllEnabled }, [])
  | .reconcileQueued now enabled =>
    if s.testAllStateValid && !s.testAllBroadcasting then
      let (s', es) := issue none (reconcileIds now s) (testFlag enabled) s
      some ({ s' with storeWork := .none }, es)
    else some ({ s with storeWork := .none }, [])
  | .recalculate => none

/-! ### The system -/

/-- A packet of the occupant of `id`. -/
def receive (id : ℕ) (slot : SlotState) (s : RevocationState) : Stepped :=
  if id < s.roster.storedTrackers then some (s.withSlot id slot, [.packet id]) else none

/-- One step. -/
def revocationStep (s : RevocationState) : RevocationOp → Stepped
  | .elapse ms => some ({ s with uptime := s.uptime + ms }, [])
  | .data id onOwnPipe =>
    receive id { s.slots id with
      lastPacketTime := s.uptime
      evidence := (s.slots id).evidence || onOwnPipe } s
  | .ping id onOwnPipe => receive id { s.slots id with evidence := (s.slots id).evidence || onOwnPipe } s
  | .withdraw id =>
    some (s.withSlot id { s.slots id with trackerRemoteCommand := pongFlagNormal }, [.withdrawn id])
  | .mark id confirmed =>
    some ({ s with testAllConfirmedMask :=
      if confirmed then setBit s.testAllConfirmedMask id else clearBit s.testAllConfirmedMask id }, [])
  | .grace id readyAfter => some (s.withSlot id { s.slots id with testAllReadyAfterMs := readyAfter }, [])
  | .addPair addr written => addPair addr written s
  | .popPair written => popPair written s
  | .clear written => clear written s
  | .layout members => publishLayout members s
  | .reconcile => reconcile s
  | .request c => request c s
  | .call k => proceed k s

/-- Remote commands as a system, from a restored roster. -/
def revocationSystem (roster : TrackerRoster) : EventSystem RevocationState RevocationOp RevocationEvent where
  init := .boot roster
  step := revocationStep

end Revocation

end SlimeReceiver
