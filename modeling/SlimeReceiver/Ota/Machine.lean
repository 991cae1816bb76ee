import SlimeReceiver.Library.EventSystem
import SlimeReceiver.Link.PongCommand
import SlimeReceiver.Ota.Relay

/-! # The relay as a system

The HID thread, the console, the pairing code and the event interrupt call into the relay, and the radio
interrupt builds ACKs and PONGs. A call is a list of what its thread still has to do; each entry is one
critical section or one access outside of them, and the threads interleave freely.

* **`Micro`** — the entries; **`Call`** — the calls; **`Call.start`** — the entries of a call.
* **`OtaWorld`** — the relay, the command slots, the radio operation and the threads.
* **`runMicro`**, **`otaStep`**, **`otaSystem`** — the system. -/

namespace SlimeReceiver.Ota

open Function (update)

/-! ## Threads -/

/-- A critical section, or an access outside of them. -/
inductive Micro
  /-- The first check of BEGIN. -/
  | admission (report : HidReport)
  /-- `esb_radio_operation_begin` claims `radio_operation_busy`. -/
  | claim (report : HidReport)
  /-- It looks for other users of the radio. -/
  | checkActive (report : HidReport)
  /-- It looks for pending aborts. -/
  | checkAbort (report : HidReport) (i : ℕ)
  /-- The critical section of BEGIN. -/
  | lock (report : HidReport) (acquired : Bool)
  | suppress
  /-- `esb_radio_operation_end`. -/
  | release
  | unsuppress
  /-- `esb_send_remote_command`. -/
  | send (id : ℕ) (flag : BitVec 8)
  | data (report : HidReport)
  | queue (verify : Bool) (report : HidReport)
  | cancel (id : ℕ)
  | cancelAll
  | forget (id : ℕ)
  | status (packet : List (BitVec 8))

/-- The calls into the relay. -/
inductive Call
  /-- `esb_ota_relay_process_hid`. -/
  | hid (report : HidReport)
  /-- `esb_ota_relay_console_cmd(id, "abort")`. -/
  | consoleAbort (id : ℕ)
  /-- `esb_ota_relay_console_cmd(id, "info")`. -/
  | consoleInfo (id : ℕ)
  /-- `esb_ota_forget_tracker`. -/
  | forget (id : ℕ)
  /-- `esb_ota_relay_process_tracker_packet` with a STATUS. -/
  | status (packet : List (BitVec 8))

/-- `ESB_PONG_FLAG_OTA_QUERY_INFO`. -/
def pongFlagOtaQueryInfo : BitVec 8 := 0x30
/-- `ESB_PONG_FLAG_OTA_UNSUPPRESS`. -/
def pongFlagOtaUnsuppress : BitVec 8 := 0x33

/-- The body of an abort: id 0xFF stands for all targets. -/
def abortMicros (id : ℕ) : List Micro :=
  if id = 0xFF then [.cancelAll] else if id < maxTrackers then [.cancel id] else []

/-- The switch of `esb_ota_relay_process_hid`. -/
def hidMicros (report : HidReport) : List Micro :=
  if report.len < 2 then []
  else if report.data 0 = 0xF0 then
    if maxTrackers ≤ report.trackerId then [] else [.send report.trackerId pongFlagOtaQueryInfo]
  else if report.data 0 = 0xF2 then if maxTrackers ≤ report.trackerId then [] else [.admission report]
  else if report.data 0 = 0xF3 then [.data report]
  else if report.data 0 = 0xF5 then [.queue true report]
  else if report.data 0 = 0xF6 then [.queue false report]
  else if report.data 0 = 0xF7 then abortMicros report.trackerId
  else []

/-- What a call has to do. -/
def Call.start : Call → List Micro
  | .hid report => hidMicros report
  | .consoleAbort id => abortMicros id
  | .consoleInfo id => if id < maxTrackers then [.send id pongFlagOtaQueryInfo] else []
  | .forget id => if maxTrackers ≤ id then [] else [.forget id]
  | .status packet =>
    if packet.length < 3 ∨ maxTrackers ≤ (packet.getD 1 0).toNat then [] else [.status packet]

/-! ## The system -/

/-- The relay and what it shares with the rest of the receiver. -/
structure OtaWorld where
  relay : Relay
  /-- `tracker_slots[id].tracker_remote_command`. -/
  command : ℕ → BitVec 8
  storedTrackers : ℕ
  radioBusy : Bool
  radioFault : Bool
  /-- What the call of a thread still has to do; nothing while it makes none. -/
  threads : ℕ → List Micro

/-- The receiver after reset. -/
def OtaWorld.init : OtaWorld where
  relay := .init
  command := fun _ => pongFlagNormal
  storedTrackers := 0
  radioBusy := false
  radioFault := false
  threads := fun _ => []

/-- What a step of a thread reads. -/
structure MicroEnvironment where
  /-- `k_uptime_ticks`. -/
  now : BitVec 32
  /-- `k_uptime_get`. -/
  uptime : ℤ
  /-- The receiver's own OTA or a collection is active. -/
  otherBusy : Bool

/-- A PING to be answered. -/
structure PingContext where
  id : ℕ
  env : Receiver.PongEnvironment
  womAdvertised : Bool
  ackFlag : BitVec 8
  /-- A channel probe. -/
  probe : Bool
  now : BitVec 32
  /-- The clock is read again for the ACK. -/
  later : BitVec 32
  stamp : BitVec 32

/-- The steps. -/
inductive OtaOp
  | call (thread : ℕ) (call : Call)
  | run (thread : ℕ) (env : MicroEnvironment)
  /-- The radio interrupt answers a STATUS, or anything else from a tracker in OTA mode. -/
  | ack (id : ℕ) (now stamp : BitVec 32) (packet : List (BitVec 8))
  /-- The radio interrupt answers a PING. -/
  | pong (ping : PingContext)
  /-- Another part of the receiver changes a command slot. -/
  | remote (id : ℕ) (flag : BitVec 8)
  | stored (count : ℕ)
  /-- Another user of the radio operation begins or ends one. -/
  | radio (busy : Bool)
  | fault

/-- The visible events. -/
inductive OtaEvent
  | started (thread : ℕ)
  /-- A call is over. -/
  | finished (thread : ℕ)
  | radioAcquired (thread : ℕ)
  | radioReleased (thread : ℕ)
  /-- A BEGIN is accepted. -/
  | begun (thread id : ℕ) (first : Bool)
  | dataAccepted (seq : BitVec 16) (payload : List (BitVec 8))
  /-- An abort has set the tombstone of a tracker, or another part has queued the command. -/
  | abortRequested (id : ℕ)
  /-- The last target has left the session. -/
  | lastLeft (thread : ℕ)
  /-- The trackers to be unsuppressed are collected. -/
  | unsuppressing (thread : ℕ) (ids : List ℕ)
  | sent (thread id : ℕ) (flag : BitVec 8)
  | acked (id : ℕ) (ack : Ack)
  | ponged (id : ℕ) (command : BitVec 8)
  /-- A STATUS is reported to the host. -/
  | forwarded (report : List (BitVec 8))
  deriving DecidableEq

namespace OtaWorld

/-- The loop of a suppression, or of the end of one, looks at the tombstone of a tracker. -/
def looksAt (others : Bool) (s : OtaWorld) (id : ℕ) : Bool :=
  decide (id < min s.storedTrackers maxTrackers) && !(others && (s.relay.tracker id).participating)

/-- The trackers it goes to. -/
def collected (now : BitVec 32) (others : Bool) (s : OtaWorld) : List ℕ :=
  (List.range (min s.storedTrackers maxTrackers)).filter fun id =>
    s.looksAt others id && !s.relay.abortPending id now

/-- Looking at a tombstone drops it once it has expired. -/
def expire (now : BitVec 32) (others : Bool) (s : OtaWorld) : OtaWorld :=
  { s with relay := { s.relay with
      abortValid := fun id => if s.looksAt others id then s.relay.abortPending id now
        else s.relay.abortValid id } }

/-- What the end of a session leads to. -/
def endMicros (ended : Bool) : List Micro := if ended then [.unsuppress] else []

/-- What the end of a session reports. -/
def endEvents (thread : ℕ) (ended : Bool) : List OtaEvent := if ended then [.lastLeft thread] else []

/-- `esb_clear_remote_ota_abort`. -/
def clearAbort (id : ℕ) (command : ℕ → BitVec 8) : ℕ → BitVec 8 :=
  if command id = pongFlagOtaAbort then update command id pongFlagNormal else command

/-- The critical section of BEGIN, with what follows. -/
def runLock (thread : ℕ) (report : HidReport) (acquired : Bool) (now : BitVec 32) (s : OtaWorld) :
    OtaWorld × List Micro × List OtaEvent :=
  match s.relay.admitTarget report now acquired with
  | .full => (s, if acquired then [.release] else [], [])
  | .needsRadio => (s, [.claim report], [])
  | .admitted first relay =>
    ({ s with
      relay := relay
      command := clearAbort report.trackerId s.command },
      (if first then [Micro.suppress] else []) ++ (if acquired then [.release] else []),
      [.begun thread report.trackerId first])

/-- One entry of a call: the state, what it leads to before the rest of the call, and what it
reports. -/
def runMicro (thread : ℕ) (env : MicroEnvironment) (s : OtaWorld) :
    Micro → OtaWorld × List Micro × List OtaEvent
  | .admission report =>
    if (s.relay.tracker report.trackerId).participating = false ∧ otaMaxParallel ≤ s.relay.targets.length
    then (s, [], [])
    else (s, if s.relay.active then [.lock report false] else [.claim report], [])
  | .claim report =>
    if s.radioFault = true ∨ s.radioBusy = true then (s, [], [])
    else ({ s with radioBusy := true }, [.checkActive report], [])
  | .checkActive report =>
    if s.relay.active = true ∨ env.otherBusy = true then ({ s with radioBusy := false }, [], [])
    else (s, [.checkAbort report 0], [])
  | .checkAbort report i =>
    let expired : OtaWorld := { s with relay := s.relay.expireAbort i env.now }
    if s.relay.abortPending i env.now then ({ expired with radioBusy := false }, [], [])
    else if i + 1 < maxTrackers then (expired, [.checkAbort report (i + 1)], [])
    else (expired, [.lock report true], [.radioAcquired thread])
  | .lock report acquired => s.runLock thread report acquired env.now
  | .suppress =>
    (s.expire env.now true, (s.collected env.now true).map fun id => .send id pongFlagOtaSuppress, [])
  | .release =>
    ({ s with radioBusy := s.radioBusy && s.radioFault }, [], [.radioReleased thread])
  | .unsuppress =>
    (s.expire env.now false, (s.collected env.now false).map fun id => .send id pongFlagOtaUnsuppress,
      [.unsuppressing thread (s.collected env.now false)])
  | .send id flag => ({ s with command := update s.command id flag }, [], [.sent thread id flag])
  | .data report =>
    ({ s with relay := s.relay.acceptData report }, [],
      if s.relay.accepts report then [.dataAccepted report.seq report.payload] else [])
  | .queue verify report => ({ s with relay := s.relay.queueCommand verify report env.now }, [], [])
  | .cancel id =>
    let cancelled := s.relay.cancelTarget id env.now
    ({ s with relay := cancelled.1 }, .send id pongFlagOtaAbort :: endMicros cancelled.2,
      .abortRequested id :: endEvents thread cancelled.2)
  | .cancelAll =>
    let cancelled := s.relay.cancelAllTargets env.now
    ({ s with relay := cancelled.1 },
      (s.relay.targets.map fun id => .send id pongFlagOtaAbort) ++ endMicros cancelled.2 ++ [Micro.unsuppress],
      s.relay.targets.map OtaEvent.abortRequested ++ endEvents thread cancelled.2)
  | .forget id =>
    let forgotten := s.relay.forgetTracker id
    ({ s with relay := forgotten.1 }, endMicros forgotten.2, endEvents thread forgotten.2)
  | .status packet =>
    let noted := s.relay.noteStatus packet env.uptime
    ({ s with relay := noted.1 }, endMicros noted.2.2,
      noted.2.1.toList.map OtaEvent.forwarded ++ endEvents thread noted.2.2)

/-- The thread has nothing left to do of its call. -/
def finishEvents (thread : ℕ) (rest : List Micro) : List OtaEvent :=
  if rest = [] then [.finished thread] else []

/-- An ACK of the radio interrupt. -/
def answer (id : ℕ) (now stamp : BitVec 32) (rx : Option (List (BitVec 8))) (s : OtaWorld) :
    OtaWorld × Option Ack :=
  let filled := s.relay.fillAck id now stamp rx
  ({ s with relay := filled.1 }, filled.2)

/-- The relay's part of the environment of a PONG. -/
def pongEnvironment (ping : PingContext) (s : OtaWorld) : Receiver.PongEnvironment :=
  { ping.env with
    otaSuppress := s.relay.active && !(s.relay.tracker ping.id).participating
    otaAborting := s.relay.abortPending ping.id ping.now }

/-- The PING branch of `esb_ack_handler_cb`: a PONG, or an ACK of the relay in its place. -/
def pong (ping : PingContext) (s : OtaWorld) : OtaWorld × List OtaEvent :=
  if maxTrackers ≤ ping.id then (s, [])
  else if ping.probe then (s, [.ponged ping.id pongFlagChannelConfirm])
  else
    let command := overridePong (s.command ping.id) (s.pongEnvironment ping) ping.womAdvertised ping.ackFlag
    let expired : OtaWorld := { s with relay := s.relay.expireAbort ping.id ping.now }
    if s.relay.abortPending ping.id ping.now then (expired, [.ponged ping.id command])
    else if s.relay.active && (s.relay.tracker ping.id).participating then
      let answered := expired.answer ping.id ping.later ping.stamp none
      (answered.1, match answered.2 with
        | some ack => [.acked ping.id ack]
        | none => [.ponged ping.id command])
    else (expired, [.ponged ping.id command])

end OtaWorld

open OtaWorld

/-- One step. -/
def otaStep (s : OtaWorld) : OtaOp → Option (OtaWorld × List OtaEvent)
  | .call thread call =>
    if (s.threads thread).isEmpty then
      some ({ s with threads := update s.threads thread call.start },
        .started thread :: finishEvents thread call.start)
    else none
  | .run thread env =>
    match s.threads thread with
    | [] => none
    | micro :: rest =>
      let run := s.runMicro thread env micro
      some ({ run.1 with threads := update s.threads thread (run.2.1 ++ rest) },
        run.2.2 ++ finishEvents thread (run.2.1 ++ rest))
  | .ack id now stamp packet =>
    let answered := s.answer id now stamp (some packet)
    some (answered.1, (answered.2.map (.acked id)).toList)
  | .pong ping => some (s.pong ping)
  | .remote id flag =>
    some ({ s with command := update s.command id flag },
      if flag = pongFlagOtaAbort then [.abortRequested id] else [])
  | .stored count => some ({ s with storedTrackers := count }, [])
  | .radio busy => some ({ s with radioBusy := busy }, [])
  | .fault => some ({ s with radioFault := true }, [])

/-- The relay, from its reset. -/
def otaSystem : EventSystem OtaWorld OtaOp OtaEvent where
  init := .init
  step := otaStep

end SlimeReceiver.Ota
