import SlimeReceiver.Library.Bytes
import SlimeReceiver.Library.EventSystem
import SlimeReceiver.Library.RingQueue
import SlimeReceiver.Library.WordMask
import SlimeReceiver.Tdma.State

/-! # The raw collection queue

`data_collect_hid.c`: the event interrupt puts reports into a ring, the send work hands the oldest one to
USB, and the completion callback gives its slot back. Interrupts and calls made with interrupts locked are
one step; the send work and the callbacks take one step for every shared variable they touch.

* **`DataCollect`**, **`collectStep`**, **`collectSystem`** — the module's variables, and where its users are.
* **`CollectHistory`** — the reports of the current session, told from the events.
* **`Undisturbed`** — nothing happens in between the steps of the send work that rely on each other.
* **`dc_queue_correct`** — order, ownership and the end of a session. -/

namespace SlimeReceiver

open Function (update update_self update_of_ne)

namespace Collect

/-! ## The code -/

/-- `DC_FIFO_SIZE`. -/
def dcFifoSize : ℕ := 64
/-- `DC_REPORT_SIZE`. -/
def dcReportSize : ℕ := 64

abbrev DcReport := List (BitVec 8)

/-- The report `data_collect_write` builds: at most 52 bytes of the packet, its RSSI, the reception time and
zeros. -/
def dcReport (data : List (BitVec 8)) (rssi : BitVec 8) (rxTicks : BitVec 32) : DcReport :=
  let body := data.take 52 ++ rssi :: be32Bytes rxTicks
  body ++ List.replicate (dcReportSize - body.length) 0

/-- What `hid_device_submit_report` returns: zero, `-EACCES` or another error. -/
inductive SubmitResult
  | ok
  | access
  | error
deriving DecidableEq

/-- Where `dc_send_work_handler` is; `session` is the one in which it took the endpoint. -/
inductive SendWork
  | idle
  | started
  | looping
  | gotRead (rd : ℕ)
  /-- The queue was not empty. -/
  | gotWrite (rd : ℕ)
  | taken (rd session : ℕ)
  /-- `dc_submitted_report` is set, the report not yet submitted. -/
  | marked (rd session : ℕ)
  | failed (rd session : ℕ) (access : Bool)
  /-- In `dc_drop_current_report`. -/
  | dropping (session : ℕ)
  | emptyCheck (rd session : ℕ)
  | advancing (session : ℕ)
  | storing (rd session : ℕ)
  | clearing

/-- Where the callbacks of the USB thread are. -/
inductive UsbThread
  | idle
  /-- In `dc_iface_ready_cb`. -/
  | readySet (ready : Bool)
  | pointerDrop
  | busyDrop (ready : Bool)
  /-- About to submit the send work. -/
  | wake
  /-- In `dc_input_report_done_cb`. -/
  | comparing (slot : ℕ)
  | advancing
  | storing (rd : ℕ)
  | pointerDone
  | busyDone

/-- The static variables, the places their users are at, the slots the USB controller owns and whether the
interface is enabled; `session` counts the resets of the queue. -/
structure DataCollect where
  dcEpBusy : Bool
  dcHidReady : Bool
  dcSubmittedReport : Option ℕ
  dcFifo : ℕ → DcReport
  dcFifoWrite : ℕ
  dcFifoRead : ℕ
  dcActive : Bool
  dcTargetTrackerId : BitVec 8
  dcBatchActive : Bool
  dcBatchMask : BitVec 32
  sendWorkQueued : Bool
  send : SendWork
  usb : UsbThread
  owned : List ℕ
  enabled : Bool
  session : ℕ

/-- The variables at boot. -/
def DataCollect.init : DataCollect where
  dcEpBusy := false
  dcHidReady := false
  dcSubmittedReport := none
  dcFifo _ := []
  dcFifoWrite := 0
  dcFifoRead := 0
  dcActive := false
  dcTargetTrackerId := 0
  dcBatchActive := false
  dcBatchMask := 0
  sendWorkQueued := false
  send := .idle
  usb := .idle
  owned := []
  enabled := false
  session := 0

/-- The steps. -/
inductive CollectOp
  | write (data : List (BitVec 8)) (rssi : BitVec 8) (rxTicks : BitVec 32)
  | start (trackerId : BitVec 8)
  | stop
  | forget (trackerId : BitVec 8)
  | batchStart (mask : BitVec 32)
  | batchStop
  /-- The work queue starts the send work. -/
  | runSendWork
  /-- The send work goes on; `result` is what a submission returns. -/
  | sendStep (result : SubmitResult)
  /-- The interface becomes ready or is lost. -/
  | ifaceReady (ready : Bool)
  /-- The controller is done with its report. -/
  | complete
  | usbStep

/-- The visible events. -/
inductive CollectEvent
  | accepted (report : DcReport)
  /-- USB accepted the report. -/
  | handed (report : DcReport)
  /-- The slot of a completed report is given back. -/
  | completed (report : DcReport)
  | dropped (report : DcReport)
  /-- The interface is lost, and with it what the controller owned. -/
  | lost
  /-- A session ended or started, or a tracker was forgotten. -/
  | reset
deriving DecidableEq

namespace DataCollect

/-- `dc_reset_fifo_locked`. -/
def resetFifo (s : DataCollect) : DataCollect :=
  match s.dcSubmittedReport with
  | some _ => { s with
      dcFifoWrite := ringNext dcFifoSize s.dcFifoRead
      session := s.session + 1 }
  | none => { s with
      dcFifoRead := s.dcFifoWrite
      session := s.session + 1 }

/-- `data_collect_write`. -/
def write (data : List (BitVec 8)) (rssi : BitVec 8) (rxTicks : BitVec 32) (s : DataCollect) :
    DataCollect × List CollectEvent :=
  if ¬ (s.dcActive ∨ s.dcBatchActive) then (s, [])
  else if ¬ s.dcHidReady then (s, [])
  else if ringNext dcFifoSize s.dcFifoWrite = s.dcFifoRead then (s, [])
  else ({ s with
    dcFifo := update s.dcFifo s.dcFifoWrite (dcReport data rssi rxTicks)
    dcFifoWrite := ringNext dcFifoSize s.dcFifoWrite
    sendWorkQueued := true }, [.accepted (dcReport data rssi rxTicks)])

/-- `data_collect_start`. -/
def start (trackerId : BitVec 8) (s : DataCollect) : DataCollect :=
  { s.resetFifo with
    dcActive := true
    dcBatchActive := false
    dcBatchMask := 0
    dcTargetTrackerId := trackerId }

/-- `data_collect_stop`. -/
def stop (s : DataCollect) : DataCollect := { s.resetFifo with dcActive := false }

/-- `data_collect_forget_tracker`, for a tracker there can be. -/
def forget (trackerId : BitVec 8) (s : DataCollect) : DataCollect :=
  { s.resetFifo with
    dcActive := s.dcActive && decide (s.dcTargetTrackerId ≠ trackerId)
    dcTargetTrackerId := if s.dcTargetTrackerId = trackerId then 255 else s.dcTargetTrackerId
    dcBatchMask := clearBit s.dcBatchMask trackerId.toNat
    dcBatchActive := decide (clearBit s.dcBatchMask trackerId.toNat ≠ 0) }

/-- `data_collect_batch_start`. -/
def batchStart (mask : BitVec 32) (s : DataCollect) : DataCollect :=
  { s.resetFifo with
    dcActive := false
    dcBatchMask := mask
    dcBatchActive := decide (mask ≠ 0) }

/-- `data_collect_batch_stop`. -/
def batchStop (s : DataCollect) : DataCollect :=
  { s.resetFifo with
    dcBatchActive := false
    dcBatchMask := 0 }

/-- `dc_send_work_handler` from where it is. -/
def sendStep (result : SubmitResult) (s : DataCollect) : Option (DataCollect × List CollectEvent) :=
  match s.send with
  | .idle => none
  | .started => some ({ s with send := if s.dcHidReady then .looping else .idle }, [])
  | .looping => some ({ s with send := .gotRead s.dcFifoRead }, [])
  | .gotRead rd => some ({ s with send := if rd = s.dcFifoWrite then .idle else .gotWrite rd }, [])
  | .gotWrite rd =>
    if s.dcEpBusy then some ({ s with send := .idle }, [])
    else some ({ s with
      dcEpBusy := true
      send := .taken rd s.session }, [])
  | .taken rd session => some ({ s with
      dcSubmittedReport := some rd
      send := .marked rd session }, [])
  | .marked rd session =>
    match result with
    | .ok =>
      if s.enabled then some ({ s with
        owned := s.owned ++ [rd]
        send := .idle }, [.handed (s.dcFifo rd)])
      else none
    | .access => if s.enabled then none else some ({ s with send := .failed rd session true }, [])
    | .error => some ({ s with send := .failed rd session false }, [])
  | .failed _ session access => some ({ s with
      dcSubmittedReport := none
      send := if access then .clearing else .dropping session }, [])
  | .dropping session => some ({ s with send := .emptyCheck s.dcFifoRead session }, [])
  | .emptyCheck rd session =>
    some ({ s with send := if rd = s.dcFifoWrite then .clearing else .advancing session }, [])
  | .advancing session => some ({ s with send := .storing s.dcFifoRead session }, [])
  | .storing rd _ => some ({ s with
      dcFifoRead := ringNext dcFifoSize rd
      send := .clearing }, [.dropped (s.dcFifo rd)])
  | .clearing => some ({ s with
      dcEpBusy := false
      send := .idle }, [])

/-- `dc_iface_ready_cb` or `dc_input_report_done_cb` from where it is. -/
def usbStep (s : DataCollect) : Option (DataCollect × List CollectEvent) :=
  match s.usb with
  | .idle => none
  | .readySet ready => some ({ s with
      dcHidReady := ready
      usb := if ready then .busyDrop true else .pointerDrop }, [])
  | .pointerDrop => some ({ s with
      dcSubmittedReport := none
      owned := []
      usb := .busyDrop false }, [.lost])
  | .busyDrop ready => some ({ s with
      dcEpBusy := false
      usb := if ready then .wake else .idle }, [])
  | .wake => some ({ s with
      sendWorkQueued := true
      usb := .idle }, [])
  | .comparing slot =>
    some ({ s with usb := if s.dcSubmittedReport = some slot then .advancing else .busyDone }, [])
  | .advancing => some ({ s with usb := .storing s.dcFifoRead }, [])
  | .storing rd => some ({ s with
      dcFifoRead := ringNext dcFifoSize rd
      usb := .pointerDone }, [.completed (s.dcFifo rd)])
  | .pointerDone => some ({ s with
      dcSubmittedReport := none
      usb := .busyDone }, [])
  | .busyDone => some ({ s with
      dcEpBusy := false
      usb := .wake }, [])

end DataCollect

/-- One step. A completion is for the report currently submitted. -/
def collectStep (s : DataCollect) : CollectOp → Option (DataCollect × List CollectEvent)
  | .write data rssi rxTicks => some (s.write data rssi rxTicks)
  | .start trackerId => some (s.start trackerId, [.reset])
  | .stop => some (s.stop, [.reset])
  | .forget trackerId =>
    if maxTrackers ≤ trackerId.toNat then some (s, []) else some (s.forget trackerId, [.reset])
  | .batchStart mask => some (s.batchStart mask, [.reset])
  | .batchStop => some (s.batchStop, [.reset])
  | .runSendWork =>
    match s.send with
    | .idle => if s.sendWorkQueued then some ({ s with
        sendWorkQueued := false
        send := .started }, []) else none
    | _ => none
  | .sendStep result => s.sendStep result
  | .ifaceReady ready =>
    match s.usb with
    | .idle => if s.enabled = ready then none else some ({ s with
        enabled := ready
        usb := .readySet ready }, [])
    | _ => none
  | .complete =>
    match s.usb, s.owned with
    | .idle, slot :: rest => if s.dcSubmittedReport = some slot then some ({ s with
        owned := rest
        usb := .comparing slot }, []) else none
    | _, _ => none
  | .usbStep => s.usbStep

/-- The module from boot on. -/
def collectSystem : EventSystem DataCollect CollectOp CollectEvent where
  init := .init
  step := collectStep

/-! ## Histories -/

/-- What the events say about the current session: the report that was in flight when it began, the reports
accepted since, those released since, and whether one is in flight. -/
structure CollectHistory where
  carried : List DcReport
  accepted : List DcReport
  released : List DcReport
  inFlight : Bool

namespace CollectHistory

def init : CollectHistory := ⟨[], [], [], false⟩

/-- The reports not yet released, in order. -/
def pending (h : CollectHistory) : List DcReport := (h.carried ++ h.accepted).drop h.released.length

/-- What an event does. A reset keeps the report in flight and nothing else. -/
def follow (h : CollectHistory) : CollectEvent → CollectHistory
  | .accepted report => { h with accepted := h.accepted ++ [report] }
  | .handed _ => { h with inFlight := true }
  | .completed report => { h with
      released := h.released ++ [report]
      inFlight := false }
  | .dropped report => { h with released := h.released ++ [report] }
  | .lost => { h with inFlight := false }
  | .reset => { h with
      carried := if h.inFlight then h.pending.take 1 else []
      accepted := []
      released := [] }

/-- The history of a run. -/
def of (trace : List CollectEvent) : CollectHistory := trace.foldl follow init

theorem of_append (trace es : List CollectEvent) : of (trace ++ es) = es.foldl follow (of trace) :=
  List.foldl_append

end CollectHistory

/-- Reports are handed to USB, and released, in the order in which the session has them, one at a time. -/
def CollectLaw (earlier : List CollectEvent) : CollectEvent → Prop
  | .handed report => (CollectHistory.of earlier).pending.head? = some report ∧
      (CollectHistory.of earlier).inFlight = false
  | .completed report => (CollectHistory.of earlier).pending.head? = some report ∧
      (CollectHistory.of earlier).inFlight = true
  | .dropped report => (CollectHistory.of earlier).pending.head? = some report ∧
      (CollectHistory.of earlier).inFlight = false
  | _ => True

/-! ## The condition -/

/-- The send work holds the endpoint. -/
def SendWork.critical : SendWork → Bool
  | .taken _ _ | .marked _ _ | .failed _ _ _ | .dropping _ | .emptyCheck _ _ | .advancing _ | .storing _ _
  | .clearing => true
  | _ => false

/-- `dc_submitted_report` is set for a report USB does not have. -/
def SendWork.marking : SendWork → Bool
  | .marked _ _ | .failed _ _ _ => true
  | _ => false

/-- `dc_iface_ready_cb` is running. -/
def UsbThread.ifaceRunning : UsbThread → Bool
  | .readySet _ | .pointerDrop | .busyDrop _ => true
  | _ => false

/-- The send work is not disturbed: it takes the endpoint for the report that is still the oldest, no session ends
between that and the marking of the report or before a failed report is dropped, no interface change comes between
taking the endpoint and a submission that succeeds, and the queue is reset only when `dc_submitted_report`, if set, is
the report being read and not about to be submitted. -/
def Undisturbed (s : DataCollect) : CollectOp → Prop
  | .sendStep result => match s.send with
    | .gotWrite rd => s.dcEpBusy = false → rd = s.dcFifoRead ∧ rd ≠ s.dcFifoWrite
    | .taken _ session => session = s.session
    | .marked _ _ => result = .ok → s.dcEpBusy = true ∧ s.usb.ifaceRunning = false
    | .storing _ session => session = s.session
    | _ => True
  | .start _ | .stop | .forget _ | .batchStart _ | .batchStop =>
    (∀ slot, s.dcSubmittedReport = some slot → slot = s.dcFifoRead) ∧ s.send.marking = false
  | _ => True

/-! ## The invariant -/

/-- The controller has nothing. -/
def Free (h : CollectHistory) (s : DataCollect) : Prop :=
  s.owned = [] ∧ h.inFlight = false ∧ ∀ slot, s.dcSubmittedReport = some slot → s.send.marking = true

/-- The endpoint is taken by the oldest report. -/
def Engaged (h : CollectHistory) (s : DataCollect) : Prop :=
  s.dcSubmittedReport = some s.dcFifoRead ∧ s.dcEpBusy = true ∧ h.inFlight = true ∧ s.send.critical = false ∧
    h.pending ≠ []

/-- The controller has the oldest report. -/
def Flying (h : CollectHistory) (s : DataCollect) : Prop := s.owned = [s.dcFifoRead] ∧ Engaged h s

/-- The report is released, the endpoint not yet. -/
def Released (h : CollectHistory) (s : DataCollect) : Prop :=
  s.owned = [] ∧ s.dcEpBusy = true ∧ h.inFlight = false ∧ s.send.critical = false

/-- What holds where the USB thread is. -/
def UsbOk (h : CollectHistory) (s : DataCollect) : UsbThread → Prop
  | .idle | .wake => Free h s ∨ Flying h s ∧ s.enabled = true
  | .readySet false | .pointerDrop => Free h s ∨ Flying h s
  | .readySet true | .busyDrop _ => Free h s
  | .comparing slot => slot = s.dcFifoRead ∧ s.owned = [] ∧ Engaged h s
  | .advancing => s.owned = [] ∧ Engaged h s
  | .storing rd => rd = s.dcFifoRead ∧ s.owned = [] ∧ Engaged h s
  | .pointerDone => Released h s ∧ ∃ slot, s.dcSubmittedReport = some slot ∧ slot ≠ s.dcFifoRead
  | .busyDone => Released h s ∧ s.dcSubmittedReport = none

/-- What the send work knows. -/
def SendOk (h : CollectHistory) (s : DataCollect) : SendWork → Prop
  | .taken rd session => session ≤ s.session ∧ (session = s.session → rd = s.dcFifoRead ∧ h.pending ≠ [])
  | .marked rd session => session = s.session ∧ rd = s.dcFifoRead ∧ h.pending ≠ [] ∧
      (s.dcEpBusy = true → s.usb ≠ .busyDrop false → s.dcSubmittedReport = some rd)
  | .failed rd session _ => session = s.session ∧ rd = s.dcFifoRead ∧ h.pending ≠ []
  | .dropping session | .advancing session => session ≤ s.session ∧ (session = s.session → h.pending ≠ [])
  | .emptyCheck rd session | .storing rd session =>
    session ≤ s.session ∧ (session = s.session → rd = s.dcFifoRead ∧ h.pending ≠ [])
  | _ => True

/-- What holds after every step. -/
structure CollectInvariant (h : CollectHistory) (s : DataCollect) : Prop where
  ring : Queued dcFifoSize s.dcFifo s.dcFifoRead s.dcFifoWrite h.pending
  released_initial : h.released <+: h.carried ++ h.accepted
  usb : UsbOk h s s.usb
  send : SendOk h s s.send

section Facts

variable {h h' : CollectHistory} {s s' : DataCollect} {u : UsbThread} {report : DcReport} {rest : List DcReport}

/-- A callback for a completed report is running. -/
def UsbThread.completing : UsbThread → Bool
  | .comparing _ | .advancing | .storing _ | .pointerDone | .busyDone => true
  | _ => false

theorem UsbOk.of_free (hfree : Free h s) (hu : u.completing = false) : UsbOk h s u := by
  cases u with
  | idle | wake => exact Or.inl hfree
  | readySet ready =>
    cases ready with
    | false => exact Or.inl hfree
    | true => exact hfree
  | pointerDrop => exact Or.inl hfree
  | busyDrop ready => exact hfree
  | comparing | advancing | storing | pointerDone | busyDone => cases hu

/-- The controller has nothing, or the endpoint is taken by a report, or the one it had is released. -/
theorem UsbOk.phase (hu : UsbOk h s u) : (Free h s ∧ u.completing = false) ∨ Engaged h s ∨ Released h s ∧
    (u = .busyDone ∧ s.dcSubmittedReport = none ∨
      ∃ slot, s.dcSubmittedReport = some slot ∧ slot ≠ s.dcFifoRead) := by
  cases u with
  | idle | wake => exact hu.imp (fun hfree => ⟨hfree, rfl⟩) fun hflying => .inl hflying.1.2
  | readySet ready =>
    cases ready with
    | false => exact hu.imp (fun hfree => ⟨hfree, rfl⟩) fun hflying => .inl hflying.2
    | true => exact .inl ⟨hu, rfl⟩
  | pointerDrop => exact hu.imp (fun hfree => ⟨hfree, rfl⟩) fun hflying => .inl hflying.2
  | busyDrop ready => exact .inl ⟨hu, rfl⟩
  | comparing slot => exact .inr (.inl hu.2.2)
  | advancing => exact .inr (.inl hu.2)
  | storing rd => exact .inr (.inl hu.2.2)
  | pointerDone => exact .inr (.inr ⟨hu.1, .inr hu.2⟩)
  | busyDone => exact .inr (.inr ⟨hu.1, .inl ⟨rfl, hu.2⟩⟩)

/-- While the endpoint is free, or the send work has it, the controller has nothing. -/
theorem UsbOk.free (hu : UsbOk h s u) (hno : s.dcEpBusy = false ∨ s.send.critical = true) :
    Free h s ∧ u.completing = false := by
  have hheld : ¬ (s.dcEpBusy = true ∧ s.send.critical = false) := by
    rintro ⟨hbusy, hcritical⟩
    rcases hno with hno | hno
    · exact absurd (hbusy.symm.trans hno) (by decide)
    · exact absurd (hcritical.symm.trans hno) (by decide)
  rcases hu.phase with hfree | ⟨-, hbusy, -, hcritical, -⟩ | ⟨⟨-, hbusy, -, hcritical⟩, -⟩
  · exact hfree
  · exact absurd ⟨hbusy, hcritical⟩ hheld
  · exact absurd ⟨hbusy, hcritical⟩ hheld

/-- What the USB thread knows is about what it shares with the send work. -/
theorem UsbOk.congr (hu : UsbOk h s u) (hfree : Free h s → Free h' s') (hengaged : Engaged h s → Engaged h' s')
    (hreleased : Released h s → Released h' s') (howned : s'.owned = s.owned)
    (hread : s'.dcFifoRead = s.dcFifoRead) (hsubmitted : s'.dcSubmittedReport = s.dcSubmittedReport)
    (henabled : s'.enabled = s.enabled) : UsbOk h' s' u := by
  have hflying : Flying h s → Flying h' s' := fun hflying =>
    ⟨by rw [howned, hread]; exact hflying.1, hengaged hflying.2⟩
  cases u with
  | idle | wake => exact hu.imp hfree fun hand => ⟨hflying hand.1, henabled.trans hand.2⟩
  | readySet ready =>
    cases ready with
    | false => exact hu.imp hfree hflying
    | true => exact hfree hu
  | pointerDrop => exact hu.imp hfree hflying
  | busyDrop ready => exact hfree hu
  | comparing slot => exact ⟨hu.1.trans hread.symm, howned.trans hu.2.1, hengaged hu.2.2⟩
  | advancing => exact ⟨howned.trans hu.1, hengaged hu.2⟩
  | storing rd => exact ⟨hu.1.trans hread.symm, howned.trans hu.2.1, hengaged hu.2.2⟩
  | pointerDone =>
    obtain ⟨slot, hslot, hne⟩ := hu.2
    exact ⟨hreleased hu.1, slot, hsubmitted.trans hslot, hread ▸ hne⟩
  | busyDone => exact ⟨hreleased hu.1, hsubmitted.trans hu.2⟩

/-- Where the send work has the endpoint neither before nor after, its place makes no difference to USB. -/
theorem UsbOk.move {w : SendWork} (hu : UsbOk h s u) (hbefore : s.send.critical = false) (hafter : w.critical = false)
    (queued : Bool) : UsbOk h { s with
      sendWorkQueued := queued
      send := w } u := by
  have hnone : ∀ w' : SendWork, w'.critical = false → w'.marking = false := fun w' hw' => by
    cases w' <;> first | rfl | cases hw'
  refine hu.congr (fun hfree => ⟨hfree.1, hfree.2.1, fun slot hslot => ?_⟩)
    (fun hengaged => ⟨hengaged.1, hengaged.2.1, hengaged.2.2.1, hafter, hengaged.2.2.2.2⟩)
    (fun hreleased => ⟨hreleased.1, hreleased.2.1, hreleased.2.2.1, hafter⟩) rfl rfl rfl rfl
  exact absurd ((hfree.2.2 slot hslot).symm.trans (hnone _ hbefore)) (by decide)

/-- What the send work knows is about the session, the read index and its own marking. -/
theorem SendOk.congr {w : SendWork} (hw : SendOk h s w) (hsession : s'.session = s.session)
    (hread : s'.dcFifoRead = s.dcFifoRead) (hpending : h.pending ≠ [] → h'.pending ≠ [])
    (hmarked : ∀ rd, (s.dcEpBusy = true → s.usb ≠ .busyDrop false → s.dcSubmittedReport = some rd) →
      s'.dcEpBusy = true → s'.usb ≠ .busyDrop false → s'.dcSubmittedReport = some rd) : SendOk h' s' w := by
  cases w with
  | taken rd session | emptyCheck rd session | storing rd session =>
    refine ⟨hw.1.trans_eq hsession.symm, fun hsame => ?_⟩
    have hold := hw.2 (hsame.trans hsession)
    exact ⟨hold.1.trans hread.symm, hpending hold.2⟩
  | marked rd session =>
    exact ⟨hw.1.trans hsession.symm, hw.2.1.trans hread.symm, hpending hw.2.2.1, hmarked rd hw.2.2.2⟩
  | failed rd session access => exact ⟨hw.1.trans hsession.symm, hw.2.1.trans hread.symm, hpending hw.2.2⟩
  | dropping session | advancing session =>
    exact ⟨hw.1.trans_eq hsession.symm, fun hsame => hpending (hw.2 (hsame.trans hsession))⟩
  | idle | started | looping | gotRead | gotWrite | clearing => trivial

theorem SendOk.of_not_critical {w : SendWork} (hw : w.critical = false) : SendOk h s w := by
  cases w with
  | idle | started | looping | gotRead | gotWrite => trivial
  | taken | marked | failed | dropping | emptyCheck | advancing | storing | clearing => cases hw

/-! ### The pending reports -/

theorem pending_accepted (hinitial : h.released <+: h.carried ++ h.accepted) (report : DcReport) :
    (h.follow (.accepted report)).pending = h.pending ++ [report] := by
  show (h.carried ++ (h.accepted ++ [report])).drop h.released.length = _
  rw [← List.append_assoc, List.drop_append_of_le_length hinitial.length_le]
  rfl

/-- The oldest report released. -/
theorem released_snoc {released all : List DcReport} (hinitial : released <+: all)
    (hnext : all.drop released.length = report :: rest) :
    released ++ [report] <+: all ∧ all.drop (released ++ [report]).length = rest := by
  obtain ⟨later, rfl⟩ := hinitial
  rw [List.drop_left] at hnext
  subst hnext
  have hall : released ++ report :: rest = (released ++ [report]) ++ rest := by
    rw [List.append_assoc, List.singleton_append]
  rw [hall]
  exact ⟨List.prefix_append _ rest, List.drop_left⟩

theorem pending_reset : (h.follow .reset).pending = if h.inFlight then h.pending.take 1 else [] := by
  show List.drop 0 (_ ++ []) = _
  rw [List.append_nil, List.drop_zero]
  rfl

end Facts

section Steps

variable {h : CollectHistory} {s s' : DataCollect} {es : List CollectEvent} {report : DcReport}
  {rest : List DcReport}

/-- A report is accepted. -/
theorem CollectInvariant.accepted (hinv : CollectInvariant h s)
    (hroom : ringNext dcFifoSize s.dcFifoWrite ≠ s.dcFifoRead) (report : DcReport) :
    CollectInvariant (h.follow (.accepted report)) { s with
      dcFifo := update s.dcFifo s.dcFifoWrite report
      dcFifoWrite := ringNext dcFifoSize s.dcFifoWrite
      sendWorkQueued := true } := by
  have hpending := pending_accepted hinv.released_initial report
  have hne : (h.follow (.accepted report)).pending ≠ [] := by
    rw [hpending]
    exact List.append_ne_nil_of_right_ne_nil _ (List.cons_ne_nil report [])
  refine ⟨hpending ▸ hinv.ring.push hroom report, ?_, ?_, ?_⟩
  · exact (hinv.released_initial.trans (List.prefix_append _ [report])).trans (by rw [List.append_assoc]; exact List.prefix_rfl)
  · exact hinv.usb.congr id (fun hengaged => ⟨hengaged.1, hengaged.2.1, hengaged.2.2.1, hengaged.2.2.2.1, hne⟩) id
      rfl rfl rfl rfl
  · exact hinv.send.congr rfl rfl (fun _ => hne) fun _ hmarked => hmarked

/-- The oldest report is released by the callback for it. -/
theorem CollectInvariant.completed (hinv : CollectInvariant h s) {rd : ℕ} (husb : s.usb = .storing rd) :
    h.pending.head? = some (s.dcFifo rd) ∧ h.inFlight = true ∧
      CollectInvariant (h.follow (.completed (s.dcFifo rd))) { s with
        dcFifoRead := ringNext dcFifoSize rd
        usb := .pointerDone } := by
  have hok := hinv.usb
  rw [husb] at hok
  obtain ⟨rfl, howned, hsubmitted, hbusy, hflight, hcritical, hne⟩ := hok
  obtain ⟨report, rest, hpending⟩ := List.exists_cons_of_ne_nil hne
  have hring := hinv.ring
  rw [hpending] at hring
  have hhead : s.dcFifo s.dcFifoRead = report := hring.head
  have hnext := released_snoc hinv.released_initial hpending
  rw [hhead, hpending]
  refine ⟨rfl, hflight, ⟨?_, hnext.1, ?_, ?_⟩⟩
  · have hpop := hring.pop
    rw [← hnext.2] at hpop
    exact hpop
  · refine ⟨⟨howned, hbusy, rfl, hcritical⟩, s.dcFifoRead, hsubmitted, fun hsame => ?_⟩
    have hlt := hring.read_lt
    change s.dcFifoRead = ringNext dcFifoSize s.dcFifoRead at hsame
    unfold ringNext dcFifoSize at *
    split at hsame <;> omega
  · exact SendOk.of_not_critical hcritical

/-- The oldest report is dropped after its submission failed. -/
theorem CollectInvariant.dropped (hinv : CollectInvariant h s) {rd session : ℕ} (hwork : s.send = .storing rd session)
    (hsession : session = s.session) :
    h.pending.head? = some (s.dcFifo rd) ∧ h.inFlight = false ∧
      CollectInvariant (h.follow (.dropped (s.dcFifo rd))) { s with
        dcFifoRead := ringNext dcFifoSize rd
        send := .clearing } := by
  have hsend := hinv.send
  rw [hwork] at hsend
  obtain ⟨rfl, hne⟩ := hsend.2 hsession
  have hcritical : s.send.critical = true := by rw [hwork]; rfl
  have hfree := hinv.usb.free (.inr hcritical)
  obtain ⟨report, rest, hpending⟩ := List.exists_cons_of_ne_nil hne
  have hring := hinv.ring
  rw [hpending] at hring
  have hhead : s.dcFifo s.dcFifoRead = report := hring.head
  have hnext := released_snoc hinv.released_initial hpending
  have hmarking : s.send.marking = false := by rw [hwork]; rfl
  rw [hhead, hpending]
  refine ⟨rfl, hfree.1.2.1, ⟨?_, hnext.1, ?_, trivial⟩⟩
  · have hpop := hring.pop
    rw [← hnext.2] at hpop
    exact hpop
  · refine UsbOk.of_free ⟨hfree.1.1, hfree.1.2.1, fun slot hslot => ?_⟩ hfree.2
    exact absurd ((hfree.1.2.2 slot hslot).symm.trans hmarking) (by decide)

/-- The queue is reset: the report in flight stays, everything else is discarded. -/
theorem CollectInvariant.reset (hinv : CollectInvariant h s)
    (hcurrent : ∀ slot, s.dcSubmittedReport = some slot → slot = s.dcFifoRead) (hmarking : s.send.marking = false) :
    CollectInvariant (h.follow .reset) s.resetFifo := by
  have hsend : SendOk (h.follow .reset) s.resetFifo s.send := by
    have hsession : s.resetFifo.session = s.session + 1 := by
      unfold DataCollect.resetFifo
      split <;> rfl
    have hold := hinv.send
    cases hwork : s.send with
    | taken rd session | dropping session | advancing session | emptyCheck rd session | storing rd session =>
      rw [hwork] at hold
      refine ⟨by rw [hsession]; exact hold.1.trans (Nat.le_succ _), fun hsame => ?_⟩
      rw [hsession] at hsame
      exact absurd hold.1 (by omega)
    | marked | failed =>
      rw [hwork] at hmarking
      cases hmarking
    | idle | started | looping | gotRead | gotWrite | clearing => trivial
  cases hsubmitted : s.dcSubmittedReport with
  | none =>
    -- nothing is in flight, and nothing is left
    have hstate : s.resetFifo = { s with
        dcFifoRead := s.dcFifoWrite
        session := s.session + 1 } := by
      unfold DataCollect.resetFifo
      rw [hsubmitted]
    rw [hstate] at hsend ⊢
    have hphase : (Free h s ∧ s.usb.completing = false) ∨ Released h s ∧ s.usb = .busyDone := by
      rcases hinv.usb.phase with hfree | ⟨hsome, -⟩ | ⟨hreleased, ⟨hdone, -⟩ | ⟨slot, hslot, -⟩⟩
      · exact .inl hfree
      · exact absurd (hsubmitted.symm.trans hsome) (by simp)
      · exact .inr ⟨hreleased, hdone⟩
      · exact absurd (hsubmitted.symm.trans hslot) (by simp)
    have hidle : h.inFlight = false := by
      rcases hphase with ⟨hfree, -⟩ | ⟨hreleased, -⟩
      · exact hfree.2.1
      · exact hreleased.2.2.1
    have hpending : (h.follow .reset).pending = [] := by rw [pending_reset, hidle]; rfl
    refine ⟨by rw [hpending]; exact .nil hinv.ring.write_lt, List.nil_prefix, ?_, hsend⟩
    rcases hphase with ⟨hfree, hcompleting⟩ | ⟨hreleased, hdone⟩
    · exact UsbOk.of_free hfree hcompleting
    · show UsbOk _ _ s.usb
      rw [hdone]
      exact ⟨hreleased, hsubmitted⟩
  | some slot =>
    -- the report in flight is the one being read
    have hstate : s.resetFifo = { s with
        dcFifoWrite := ringNext dcFifoSize s.dcFifoRead
        session := s.session + 1 } := by
      unfold DataCollect.resetFifo
      rw [hsubmitted]
    rw [hstate] at hsend ⊢
    have hslot := hcurrent slot hsubmitted
    have hengaged : Engaged h s := by
      rcases hinv.usb.phase with ⟨hfree, -⟩ | hengaged | ⟨-, ⟨-, hnone⟩ | ⟨slot', hslot', hne⟩⟩
      · exact absurd ((hfree.2.2 slot hsubmitted).symm.trans hmarking) (by decide)
      · exact hengaged
      · exact absurd (hsubmitted.symm.trans hnone) (by simp)
      · exact absurd (hcurrent slot' hslot') hne
    obtain ⟨report, rest, hrest⟩ := List.exists_cons_of_ne_nil hengaged.2.2.2.2
    have hpending : (h.follow .reset).pending = [report] := by
      rw [pending_reset, hengaged.2.2.1, hrest]
      rfl
    have hring := hinv.ring
    rw [hrest] at hring
    refine ⟨by rw [hpending]; exact hring.keepHead (by decide), List.nil_prefix, ?_, hsend⟩
    refine hinv.usb.congr (fun hfree => ?_) (fun _ => ⟨hengaged.1, hengaged.2.1, hengaged.2.2.1, hengaged.2.2.2.1,
      by rw [hpending]; exact List.cons_ne_nil _ _⟩) id rfl rfl rfl rfl
    exact absurd ((hfree.2.2 slot hsubmitted).symm.trans hmarking) (by decide)

/-- The mode flags are nothing to the queue. -/
theorem CollectInvariant.mode (hinv : CollectInvariant h s) (active batchActive : Bool) (trackerId : BitVec 8)
    (mask : BitVec 32) : CollectInvariant h { s with
      dcActive := active
      dcTargetTrackerId := trackerId
      dcBatchActive := batchActive
      dcBatchMask := mask } :=
  ⟨hinv.ring, hinv.released_initial, hinv.usb.congr id id id rfl rfl rfl rfl,
    hinv.send.congr rfl rfl id fun _ hmarked => hmarked⟩

/-- What is asked of a step: the invariant after it, and the law of its events. -/
def Lawful (trace : List CollectEvent) (s' : DataCollect) (es : List CollectEvent) : Prop :=
  CollectInvariant (CollectHistory.of (trace ++ es)) s' ∧
    (EachAfter CollectLaw trace → EachAfter CollectLaw (trace ++ es))

variable {trace : List CollectEvent}

theorem Lawful.quiet (hinv : CollectInvariant (CollectHistory.of trace) s') : Lawful trace s' [] := by
  unfold Lawful
  rw [List.append_nil]
  exact ⟨hinv, id⟩

theorem Lawful.event {e : CollectEvent} (hinv : CollectInvariant ((CollectHistory.of trace).follow e) s')
    (hlaw : CollectLaw trace e) : Lawful trace s' [e] :=
  ⟨by rw [CollectHistory.of_append]; exact hinv, fun htrace => eachAfter_snoc.mpr ⟨htrace, hlaw⟩⟩

/-- The send work moves on without the endpoint. -/
theorem CollectInvariant.move (hinv : CollectInvariant h s) {w : SendWork} (hbefore : s.send.critical = false)
    (hafter : w.critical = false) (queued : Bool) : CollectInvariant h { s with
      sendWorkQueued := queued
      send := w } :=
  ⟨hinv.ring, hinv.released_initial, hinv.usb.move hbefore hafter queued, SendOk.of_not_critical hafter⟩

/-- The send work moves on with the endpoint. -/
theorem CollectInvariant.hold (hinv : CollectInvariant h s) {w : SendWork} {submitted : Option ℕ} {busy : Bool}
    (hcritical : s.dcEpBusy = false ∨ s.send.critical = true)
    (hsubmitted : ∀ slot, submitted = some slot → w.marking = true)
    (hw : SendOk h { s with
      dcSubmittedReport := submitted
      dcEpBusy := busy
      send := w } w) : CollectInvariant h { s with
      dcSubmittedReport := submitted
      dcEpBusy := busy
      send := w } := by
  have hfree := hinv.usb.free hcritical
  exact ⟨hinv.ring, hinv.released_initial, UsbOk.of_free ⟨hfree.1.1, hfree.1.2.1, hsubmitted⟩ hfree.2, hw⟩

/-- The report is handed to USB. -/
theorem CollectInvariant.handed (hinv : CollectInvariant h s) {rd session : ℕ} (hwork : s.send = .marked rd session)
    (henabled : s.enabled = true) (hbusy : s.dcEpBusy = true) (hiface : s.usb.ifaceRunning = false) :
    h.pending.head? = some (s.dcFifo rd) ∧ h.inFlight = false ∧
      CollectInvariant (h.follow (.handed (s.dcFifo rd))) { s with
        owned := s.owned ++ [rd]
        send := .idle } := by
  have hsend := hinv.send
  rw [hwork] at hsend
  obtain ⟨-, rfl, hne, hmarked⟩ := hsend
  have hfree := hinv.usb.free (.inr (by rw [hwork]; rfl))
  have hsubmitted : s.dcSubmittedReport = some s.dcFifoRead := by
    refine hmarked hbusy fun hdrop => ?_
    rw [hdrop] at hiface
    cases hiface
  obtain ⟨report, rest, hpending⟩ := List.exists_cons_of_ne_nil hne
  have hring := hinv.ring
  rw [hpending] at hring
  have hhead : s.dcFifo s.dcFifoRead = report := hring.head
  have hflying : Flying (h.follow (.handed (s.dcFifo s.dcFifoRead))) { s with
      owned := s.owned ++ [s.dcFifoRead]
      send := .idle } := by
    refine ⟨?_, hsubmitted, hbusy, rfl, rfl, hne⟩
    show s.owned ++ [s.dcFifoRead] = _
    rw [hfree.1.1]
    rfl
  refine ⟨by rw [hhead, hpending]; rfl, hfree.1.2.1, ⟨hinv.ring, hinv.released_initial, ?_, trivial⟩⟩
  have hcompleting := hfree.2
  show UsbOk _ _ s.usb
  cases hplace : s.usb with
  | idle | wake => exact Or.inr ⟨hflying, henabled⟩
  | readySet | pointerDrop | busyDrop =>
    rw [hplace] at hiface
    cases hiface
  | comparing | advancing | storing | pointerDone | busyDone =>
    rw [hplace] at hcompleting
    cases hcompleting

/-- The send work goes on. -/
theorem sendStep_lawful {result : SubmitResult} (hinv : CollectInvariant (CollectHistory.of trace) s)
    (hund : Undisturbed s (.sendStep result)) (hstep : s.sendStep result = some (s', es)) :
    Lawful trace s' es := by
  have hsend := hinv.send
  -- past the marking the pointer is clear
  have hunmarked : s.send.critical = true → s.send.marking = false → ∀ {P : Prop} slot,
      s.dcSubmittedReport = some slot → P := fun hcritical hmarking _ slot hslot =>
    absurd (((hinv.usb.free (.inr hcritical)).1.2.2 slot hslot).symm.trans hmarking) (by decide)
  unfold Undisturbed at hund
  unfold DataCollect.sendStep at hstep
  cases hwork : s.send with
  | idle =>
    rw [hwork] at hstep
    cases hstep
  | started | looping | gotRead =>
    rw [hwork] at hstep
    obtain ⟨rfl, rfl⟩ := Prod.mk.inj (Option.some.inj hstep)
    refine .quiet (hinv.move (by rw [hwork]; rfl) ?_ s.sendWorkQueued)
    first
      | rfl
      | (split <;> rfl)
  | gotWrite rd =>
    simp only [hwork] at hstep hund
    split at hstep
    · obtain ⟨rfl, rfl⟩ := Prod.mk.inj (Option.some.inj hstep)
      exact .quiet (hinv.move (by rw [hwork]; rfl) rfl s.sendWorkQueued)
    case isFalse hbusy =>
      obtain ⟨rfl, rfl⟩ := Prod.mk.inj (Option.some.inj hstep)
      rw [Bool.not_eq_true] at hbusy
      obtain ⟨hread, hwrite⟩ := hund hbusy
      have hfree := hinv.usb.free (.inl hbusy)
      refine .quiet (hinv.hold (.inl hbusy) (fun slot hslot => ?_) ⟨le_rfl, fun _ => ⟨hread, fun hempty => ?_⟩⟩)
      · have hmarking := hfree.1.2.2 slot hslot
        rw [hwork] at hmarking
        cases hmarking
      · exact hwrite (hread.trans (hinv.ring.read_eq_write_iff.mpr hempty))
  | taken rd session =>
    simp only [hwork] at hstep hund
    rw [hwork] at hsend
    obtain ⟨rfl, rfl⟩ := Prod.mk.inj (Option.some.inj hstep)
    obtain ⟨hread, hne⟩ := hsend.2 hund
    exact .quiet (hinv.hold (.inr (by rw [hwork]; rfl)) (fun _ _ => rfl) ⟨hund, hread, hne, fun _ _ => rfl⟩)
  | marked rd session =>
    simp only [hwork] at hstep hund
    rw [hwork] at hsend
    have hcritical : s.dcEpBusy = false ∨ s.send.critical = true := .inr (by rw [hwork]; rfl)
    cases result with
    | ok =>
      simp only at hstep
      split at hstep
      case isTrue henabled =>
        obtain ⟨rfl, rfl⟩ := Prod.mk.inj (Option.some.inj hstep)
        obtain ⟨hbusy, hiface⟩ := hund rfl
        have hnext := hinv.handed hwork henabled hbusy hiface
        exact .event hnext.2.2 ⟨hnext.1, hnext.2.1⟩
      case isFalse => cases hstep
    | access =>
      simp only at hstep
      split at hstep
      · cases hstep
      · obtain ⟨rfl, rfl⟩ := Prod.mk.inj (Option.some.inj hstep)
        exact .quiet (hinv.hold hcritical (fun _ _ => rfl) ⟨hsend.1, hsend.2.1, hsend.2.2.1⟩)
    | error =>
      obtain ⟨rfl, rfl⟩ := Prod.mk.inj (Option.some.inj hstep)
      exact .quiet (hinv.hold hcritical (fun _ _ => rfl) ⟨hsend.1, hsend.2.1, hsend.2.2.1⟩)
  | failed rd session access =>
    simp only [hwork] at hstep
    rw [hwork] at hsend
    obtain ⟨rfl, rfl⟩ := Prod.mk.inj (Option.some.inj hstep)
    refine .quiet (hinv.hold (.inr (by rw [hwork]; rfl)) (fun _ hnone => (by cases hnone)) ?_)
    cases access with
    | true => exact trivial
    | false => exact ⟨hsend.1.le, fun _ => hsend.2.2⟩
  | dropping session =>
    simp only [hwork] at hstep
    rw [hwork] at hsend
    obtain ⟨rfl, rfl⟩ := Prod.mk.inj (Option.some.inj hstep)
    exact .quiet (hinv.hold (.inr (by rw [hwork]; rfl)) (hunmarked (by rw [hwork]; rfl) (by rw [hwork]; rfl))
      ⟨hsend.1, fun hsame => ⟨rfl, hsend.2 hsame⟩⟩)
  | emptyCheck rd session =>
    simp only [hwork] at hstep
    rw [hwork] at hsend
    obtain ⟨rfl, rfl⟩ := Prod.mk.inj (Option.some.inj hstep)
    refine .quiet (hinv.hold (.inr (by rw [hwork]; rfl)) (hunmarked (by rw [hwork]; rfl) (by rw [hwork]; rfl)) ?_)
    split
    · exact trivial
    · exact ⟨hsend.1, fun hsame => (hsend.2 hsame).2⟩
  | advancing session =>
    simp only [hwork] at hstep
    rw [hwork] at hsend
    obtain ⟨rfl, rfl⟩ := Prod.mk.inj (Option.some.inj hstep)
    exact .quiet (hinv.hold (.inr (by rw [hwork]; rfl)) (hunmarked (by rw [hwork]; rfl) (by rw [hwork]; rfl))
      ⟨hsend.1, fun hsame => ⟨rfl, hsend.2 hsame⟩⟩)
  | storing rd session =>
    simp only [hwork] at hstep hund
    obtain ⟨rfl, rfl⟩ := Prod.mk.inj (Option.some.inj hstep)
    have hnext := hinv.dropped hwork hund
    exact .event hnext.2.2 ⟨hnext.1, hnext.2.1⟩
  | clearing =>
    simp only [hwork] at hstep
    obtain ⟨rfl, rfl⟩ := Prod.mk.inj (Option.some.inj hstep)
    exact .quiet (hinv.hold (.inr (by rw [hwork]; rfl)) (hunmarked (by rw [hwork]; rfl) (by rw [hwork]; rfl)) trivial)

/-- A callback of the USB thread goes on. -/
theorem usbStep_lawful (hinv : CollectInvariant (CollectHistory.of trace) s)
    (hstep : s.usbStep = some (s', es)) : Lawful trace s' es := by
  have husb := hinv.usb
  unfold DataCollect.usbStep at hstep
  cases hplace : s.usb with
  | idle =>
    rw [hplace] at hstep
    cases hstep
  | readySet ready =>
    simp only [hplace] at hstep
    rw [hplace] at husb
    obtain ⟨rfl, rfl⟩ := Prod.mk.inj (Option.some.inj hstep)
    refine .quiet ⟨hinv.ring, hinv.released_initial, ?_, ?_⟩
    · cases ready with
      | true => exact (show Free _ s from husb)
      | false => exact (show Free _ s ∨ Flying _ s from husb)
    · exact hinv.send.congr rfl rfl id fun rd hmarked hbusy _ => hmarked hbusy (by rw [hplace]; nofun)
  | pointerDrop =>
    simp only [hplace] at hstep
    obtain ⟨rfl, rfl⟩ := Prod.mk.inj (Option.some.inj hstep)
    refine .event ⟨hinv.ring, hinv.released_initial, ?_, ?_⟩ trivial
    · exact (show Free _ _ from ⟨rfl, rfl, fun slot hnone => (by cases hnone)⟩)
    · exact hinv.send.congr rfl rfl id fun rd _ _ hlost => absurd rfl hlost
  | busyDrop ready =>
    simp only [hplace] at hstep
    rw [hplace] at husb
    obtain ⟨rfl, rfl⟩ := Prod.mk.inj (Option.some.inj hstep)
    refine .quiet ⟨hinv.ring, hinv.released_initial, ?_, ?_⟩
    · exact UsbOk.of_free (show Free _ s from husb) (by cases ready <;> rfl)
    · exact hinv.send.congr rfl rfl id fun rd _ hbusy => (by cases hbusy)
  | wake =>
    simp only [hplace] at hstep
    rw [hplace] at husb
    obtain ⟨rfl, rfl⟩ := Prod.mk.inj (Option.some.inj hstep)
    refine .quiet ⟨hinv.ring, hinv.released_initial, ?_, ?_⟩
    · exact (show Free _ s ∨ Flying _ s ∧ _ from husb)
    · exact hinv.send.congr rfl rfl id fun rd hmarked hbusy _ => hmarked hbusy (by rw [hplace]; nofun)
  | comparing slot =>
    simp only [hplace] at hstep
    rw [hplace] at husb
    obtain ⟨rfl, howned, hengaged⟩ := husb
    rw [if_pos hengaged.1] at hstep
    obtain ⟨rfl, rfl⟩ := Prod.mk.inj (Option.some.inj hstep)
    exact .quiet ⟨hinv.ring, hinv.released_initial, ⟨howned, hengaged⟩, SendOk.of_not_critical hengaged.2.2.2.1⟩
  | advancing =>
    simp only [hplace] at hstep
    rw [hplace] at husb
    obtain ⟨howned, hengaged⟩ := husb
    obtain ⟨rfl, rfl⟩ := Prod.mk.inj (Option.some.inj hstep)
    exact .quiet ⟨hinv.ring, hinv.released_initial, ⟨rfl, howned, hengaged⟩, SendOk.of_not_critical hengaged.2.2.2.1⟩
  | storing rd =>
    simp only [hplace] at hstep
    obtain ⟨rfl, rfl⟩ := Prod.mk.inj (Option.some.inj hstep)
    have hnext := hinv.completed hplace
    exact .event hnext.2.2 ⟨hnext.1, hnext.2.1⟩
  | pointerDone =>
    simp only [hplace] at hstep
    rw [hplace] at husb
    obtain ⟨hreleased, -⟩ := husb
    obtain ⟨rfl, rfl⟩ := Prod.mk.inj (Option.some.inj hstep)
    exact .quiet ⟨hinv.ring, hinv.released_initial, ⟨hreleased, rfl⟩, SendOk.of_not_critical hreleased.2.2.2⟩
  | busyDone =>
    simp only [hplace] at hstep
    rw [hplace] at husb
    obtain ⟨hreleased, hnone⟩ := husb
    obtain ⟨rfl, rfl⟩ := Prod.mk.inj (Option.some.inj hstep)
    refine .quiet ⟨hinv.ring, hinv.released_initial, UsbOk.of_free ⟨hreleased.1, hreleased.2.2.1, fun slot hslot => ?_⟩ rfl,
      SendOk.of_not_critical hreleased.2.2.2⟩
    exact absurd (hnone.symm.trans hslot) (by simp)

theorem reset_lawful (hinv : CollectInvariant (CollectHistory.of trace) s)
    (hund : (∀ slot, s.dcSubmittedReport = some slot → slot = s.dcFifoRead) ∧ s.send.marking = false)
    (active batchActive : Bool) (trackerId : BitVec 8) (mask : BitVec 32) : Lawful trace { s.resetFifo with
      dcActive := active
      dcTargetTrackerId := trackerId
      dcBatchActive := batchActive
      dcBatchMask := mask } [.reset] :=
  .event ((hinv.reset hund.1 hund.2).mode active batchActive trackerId mask) trivial

theorem collectStep_lawful {op : CollectOp} (hinv : CollectInvariant (CollectHistory.of trace) s)
    (hund : Undisturbed s op) (hstep : collectStep s op = some (s', es)) : Lawful trace s' es := by
  cases op with
  | write data rssi rxTicks =>
    simp only [collectStep, DataCollect.write] at hstep
    split at hstep
    · obtain ⟨rfl, rfl⟩ := Prod.mk.inj (Option.some.inj hstep)
      exact .quiet hinv
    split at hstep
    · obtain ⟨rfl, rfl⟩ := Prod.mk.inj (Option.some.inj hstep)
      exact .quiet hinv
    split at hstep
    · obtain ⟨rfl, rfl⟩ := Prod.mk.inj (Option.some.inj hstep)
      exact .quiet hinv
    case isFalse hroom =>
      obtain ⟨rfl, rfl⟩ := Prod.mk.inj (Option.some.inj hstep)
      exact .event (hinv.accepted hroom _) trivial
  | start trackerId =>
    obtain ⟨rfl, rfl⟩ := Prod.mk.inj (Option.some.inj hstep)
    exact reset_lawful hinv hund _ _ _ _
  | stop =>
    obtain ⟨rfl, rfl⟩ := Prod.mk.inj (Option.some.inj hstep)
    exact reset_lawful hinv hund _ s.resetFifo.dcBatchActive s.resetFifo.dcTargetTrackerId s.resetFifo.dcBatchMask
  | forget trackerId =>
    simp only [collectStep] at hstep
    split at hstep
    · obtain ⟨rfl, rfl⟩ := Prod.mk.inj (Option.some.inj hstep)
      exact .quiet hinv
    · obtain ⟨rfl, rfl⟩ := Prod.mk.inj (Option.some.inj hstep)
      exact reset_lawful hinv hund _ _ _ _
  | batchStart mask =>
    obtain ⟨rfl, rfl⟩ := Prod.mk.inj (Option.some.inj hstep)
    exact reset_lawful hinv hund _ _ s.resetFifo.dcTargetTrackerId _
  | batchStop =>
    obtain ⟨rfl, rfl⟩ := Prod.mk.inj (Option.some.inj hstep)
    exact reset_lawful hinv hund s.resetFifo.dcActive _ s.resetFifo.dcTargetTrackerId _
  | runSendWork =>
    simp only [collectStep] at hstep
    split at hstep
    case h_1 hidle =>
      split at hstep
      · obtain ⟨rfl, rfl⟩ := Prod.mk.inj (Option.some.inj hstep)
        exact .quiet (hinv.move (by rw [hidle]; rfl) rfl false)
      · cases hstep
    case h_2 => cases hstep
  | sendStep result => exact sendStep_lawful hinv hund hstep
  | ifaceReady ready =>
    simp only [collectStep] at hstep
    split at hstep
    case h_1 hidle =>
      split at hstep
      · cases hstep
      case isFalse hchanged =>
        obtain ⟨rfl, rfl⟩ := Prod.mk.inj (Option.some.inj hstep)
        have husb := hinv.usb
        rw [hidle] at husb
        refine .quiet ⟨hinv.ring, hinv.released_initial, ?_, ?_⟩
        · cases ready with
          | false => exact (show Free _ s ∨ Flying _ s from husb.imp id And.left)
          | true =>
            refine (show Free _ s from husb.resolve_right fun hflying => hchanged hflying.2)
        · exact hinv.send.congr rfl rfl id fun rd hmarked hbusy _ => hmarked hbusy (by rw [hidle]; nofun)
    case h_2 => cases hstep
  | complete =>
    simp only [collectStep] at hstep
    split at hstep
    case h_1 slot rest hidle howned =>
      split at hstep
      case isTrue hsubmitted =>
        obtain ⟨rfl, rfl⟩ := Prod.mk.inj (Option.some.inj hstep)
        have husb := hinv.usb
        rw [hidle] at husb
        rcases husb with hfree | ⟨⟨hflying, hengaged⟩, -⟩
        · exact absurd (howned.symm.trans hfree.1) (List.cons_ne_nil _ _)
        · obtain ⟨hslot, hrest⟩ := List.cons_eq_cons.mp (howned.symm.trans hflying)
          exact .quiet ⟨hinv.ring, hinv.released_initial, ⟨hslot, hrest, hengaged⟩,
            SendOk.of_not_critical hengaged.2.2.2.1⟩
      case isFalse => cases hstep
    case h_2 => cases hstep
  | usbStep => exact usbStep_lawful hinv hstep

/-- The invariant and the law of the events hold of every run whose steps are undisturbed. -/
theorem collect_invariant (hrun : collectSystem.RunWhere Undisturbed trace s) :
    CollectInvariant (CollectHistory.of trace) s ∧ EachAfter CollectLaw trace := by
  induction hrun with
  | start =>
    refine ⟨⟨.nil (by decide), List.nil_prefix, Or.inl ⟨rfl, rfl, fun slot hnone => (by cases hnone)⟩, trivial⟩, ?_⟩
    exact eachAfter_nil
  | snoc _ hund htaken ih =>
    have hnext := collectStep_lawful ih.1 hund htaken
    exact ⟨hnext.1, hnext.2 ih.2⟩

end Steps

/-! ## Progress -/

/-- A submission error dropped a report, and none was accepted since. -/
def stalled (trace : List CollectEvent) : Bool :=
  trace.foldl (fun st e => match e with
    | .dropped _ => true
    | .accepted _ | .reset => false
    | _ => st) false

/-- No report waits, or a submission error ended the work, or something will start it again. -/
def Attended (trace : List CollectEvent) (s : DataCollect) : Prop :=
  (CollectHistory.of trace).pending = [] ∨ stalled trace = true ∨ s.sendWorkQueued = true ∨ s.usb ≠ .idle ∨
    s.owned ≠ [] ∨ s.dcHidReady = false

/-- The send work ends only where the reports are attended to. -/
def PlaceOk (trace : List CollectEvent) (s : DataCollect) : SendWork → Prop
  | .idle | .clearing | .failed _ _ true => Attended trace s
  | .gotRead rd | .emptyCheck rd _ => rd = s.dcFifoWrite → Attended trace s
  | _ => True

structure ProgressInvariant (trace : List CollectEvent) (s : DataCollect) : Prop where
  down : s.enabled = false → s.dcHidReady = false ∨ s.usb = .readySet false
  changed : ∀ ready, s.usb = .readySet ready → s.enabled = ready
  lost : s.usb = .pointerDrop ∨ s.usb = .busyDrop false → s.dcHidReady = false
  busy : s.usb = .idle ∨ s.usb = .wake → s.dcEpBusy = true → s.send.critical = true ∨ s.owned ≠ []
  place : PlaceOk trace s s.send

section Progress

variable {trace : List CollectEvent} {s s' : DataCollect} {es : List CollectEvent}

theorem Attended.place (h : Attended trace s) (w : SendWork) : PlaceOk trace s w := by
  cases w with
  | idle | clearing => exact h
  | failed rd session access =>
    cases access with
    | true => exact h
    | false => trivial
  | gotRead | emptyCheck => exact fun _ => h
  | started | looping | gotWrite | taken | marked | dropping | advancing | storing => trivial

theorem Attended.of_usb (h : s.usb ≠ .idle) : Attended trace s := .inr (.inr (.inr (.inl h)))

theorem PlaceOk.congr {w : SendWork} (hw : PlaceOk trace s w) (hattended : Attended trace s → Attended trace s')
    (hwrite : s'.dcFifoWrite = s.dcFifoWrite) : PlaceOk trace s' w := by
  cases w with
  | idle | clearing => exact hattended hw
  | failed rd session access =>
    cases access with
    | true => exact hattended hw
    | false => trivial
  | gotRead | emptyCheck => exact fun hsame => hattended (hw (hsame.trans hwrite))
  | started | looping | gotWrite | taken | marked | dropping | advancing | storing => trivial

/-- The send work moves to a place where the reports are attended to as far as they must be. -/
theorem ProgressInvariant.move (h : ProgressInvariant trace s) (w : SendWork)
    (hcritical : s.send.critical = true → w.critical = true) (hplace : PlaceOk trace s w) (submitted : Option ℕ) :
    ProgressInvariant trace { s with
      dcSubmittedReport := submitted
      send := w } where
  down := h.down
  changed := h.changed
  lost := h.lost
  busy husb hbusy := (h.busy husb hbusy).imp_left hcritical
  place := hplace.congr id rfl

/-- What the send work does leaves the reports attended to. -/
theorem sendStep_progress {result : SubmitResult} (hinv : CollectInvariant (CollectHistory.of trace) s)
    (h : ProgressInvariant trace s) (hstep : s.sendStep result = some (s', es)) :
    ProgressInvariant (trace ++ es) s' := by
  have hempty : s.dcFifoRead = s.dcFifoWrite → Attended trace s := fun hsame =>
    .inl (hinv.ring.read_eq_write_iff.mp hsame)
  have hplace := h.place
  unfold DataCollect.sendStep at hstep
  cases hwork : s.send with
  | idle =>
    rw [hwork] at hstep
    cases hstep
  | started =>
    simp only [hwork] at hstep
    obtain ⟨rfl, rfl⟩ := Prod.mk.inj (Option.some.inj hstep)
    rw [List.append_nil]
    refine h.move _ (by rw [hwork]; nofun) ?_ s.dcSubmittedReport
    split
    case isTrue => trivial
    case isFalse hready => exact .inr (.inr (.inr (.inr (.inr (eq_false_of_ne_true hready)))))
  | looping =>
    simp only [hwork] at hstep
    obtain ⟨rfl, rfl⟩ := Prod.mk.inj (Option.some.inj hstep)
    rw [List.append_nil]
    exact h.move (.gotRead s.dcFifoRead) (by rw [hwork]; nofun) hempty s.dcSubmittedReport
  | gotRead rd =>
    simp only [hwork] at hstep
    rw [hwork] at hplace
    obtain ⟨rfl, rfl⟩ := Prod.mk.inj (Option.some.inj hstep)
    rw [List.append_nil]
    refine h.move _ (by rw [hwork]; nofun) ?_ s.dcSubmittedReport
    split
    case isTrue hsame => exact hplace hsame
    case isFalse => trivial
  | gotWrite rd =>
    simp only [hwork] at hstep
    split at hstep
    case isTrue hbusy =>
      obtain ⟨rfl, rfl⟩ := Prod.mk.inj (Option.some.inj hstep)
      rw [List.append_nil]
      refine h.move _ (by rw [hwork]; nofun) ?_ s.dcSubmittedReport
      by_cases husb : s.usb = .idle
      · have howner := h.busy (.inl husb) hbusy
        rw [hwork] at howner
        exact .inr (.inr (.inr (.inr (.inl (howner.resolve_left nofun)))))
      · exact .of_usb husb
    case isFalse =>
      obtain ⟨rfl, rfl⟩ := Prod.mk.inj (Option.some.inj hstep)
      rw [List.append_nil]
      exact ⟨h.down, h.changed, h.lost, fun _ _ => .inl rfl, trivial⟩
  | taken rd session =>
    simp only [hwork] at hstep
    obtain ⟨rfl, rfl⟩ := Prod.mk.inj (Option.some.inj hstep)
    rw [List.append_nil]
    exact h.move (.marked rd session) (fun _ => rfl) trivial (some rd)
  | marked rd session =>
    simp only [hwork] at hstep
    cases result with
    | ok =>
      simp only at hstep
      split at hstep
      case isTrue =>
        obtain ⟨rfl, rfl⟩ := Prod.mk.inj (Option.some.inj hstep)
        have howned : s.owned ++ [rd] ≠ [] := List.append_ne_nil_of_right_ne_nil _ (List.cons_ne_nil rd [])
        exact ⟨h.down, h.changed, h.lost, fun _ _ => .inr howned, .inr (.inr (.inr (.inr (.inl howned))))⟩
      case isFalse => cases hstep
    | access =>
      simp only at hstep
      split at hstep
      case isTrue => cases hstep
      case isFalse hdown =>
        obtain ⟨rfl, rfl⟩ := Prod.mk.inj (Option.some.inj hstep)
        rw [List.append_nil]
        refine h.move _ (fun _ => rfl) ?_ s.dcSubmittedReport
        rcases h.down (eq_false_of_ne_true hdown) with hready | husb
        · exact .inr (.inr (.inr (.inr (.inr hready))))
        · exact .of_usb (by rw [husb]; nofun)
    | error =>
      obtain ⟨rfl, rfl⟩ := Prod.mk.inj (Option.some.inj hstep)
      rw [List.append_nil]
      exact h.move (.failed rd session false) (fun _ => rfl) trivial s.dcSubmittedReport
  | failed rd session access =>
    simp only [hwork] at hstep
    rw [hwork] at hplace
    obtain ⟨rfl, rfl⟩ := Prod.mk.inj (Option.some.inj hstep)
    rw [List.append_nil]
    cases access with
    | true => exact h.move .clearing (fun _ => rfl) hplace none
    | false => exact h.move (.dropping session) (fun _ => rfl) trivial none
  | dropping session =>
    simp only [hwork] at hstep
    obtain ⟨rfl, rfl⟩ := Prod.mk.inj (Option.some.inj hstep)
    rw [List.append_nil]
    exact h.move (.emptyCheck s.dcFifoRead session) (fun _ => rfl) hempty s.dcSubmittedReport
  | emptyCheck rd session =>
    simp only [hwork] at hstep
    rw [hwork] at hplace
    obtain ⟨rfl, rfl⟩ := Prod.mk.inj (Option.some.inj hstep)
    rw [List.append_nil]
    refine h.move _ (fun _ => ?_) ?_ s.dcSubmittedReport
    · split <;> rfl
    · split
      case isTrue hsame => exact hplace hsame
      case isFalse => trivial
  | advancing session =>
    simp only [hwork] at hstep
    obtain ⟨rfl, rfl⟩ := Prod.mk.inj (Option.some.inj hstep)
    rw [List.append_nil]
    exact h.move (.storing s.dcFifoRead session) (fun _ => rfl) trivial s.dcSubmittedReport
  | storing rd session =>
    simp only [hwork] at hstep
    obtain ⟨rfl, rfl⟩ := Prod.mk.inj (Option.some.inj hstep)
    have hstalled : stalled (trace ++ [CollectEvent.dropped (s.dcFifo rd)]) = true := by
      rw [stalled, List.foldl_append]
      rfl
    exact ⟨h.down, h.changed, h.lost, fun _ _ => .inl rfl, .inr (.inl hstalled)⟩
  | clearing =>
    simp only [hwork] at hstep
    rw [hwork] at hplace
    obtain ⟨rfl, rfl⟩ := Prod.mk.inj (Option.some.inj hstep)
    rw [List.append_nil]
    exact ⟨h.down, h.changed, h.lost, fun _ hbusy => (by cases hbusy), hplace⟩

/-- So do the callbacks. -/
theorem usbStep_progress (h : ProgressInvariant trace s) (hstep : s.usbStep = some (s', es)) :
    ProgressInvariant (trace ++ es) s' := by
  have hdown : s.usb ≠ .readySet false → s.enabled = false → s.dcHidReady = false := fun hplace henabled =>
    (h.down henabled).resolve_right hplace
  unfold DataCollect.usbStep at hstep
  cases hplace : s.usb with
  | idle =>
    rw [hplace] at hstep
    cases hstep
  | readySet ready =>
    simp only [hplace] at hstep
    have henabled := h.changed ready hplace
    obtain ⟨rfl, rfl⟩ := Prod.mk.inj (Option.some.inj hstep)
    cases ready with
    | true =>
      exact ⟨fun hoff => absurd (henabled.symm.trans hoff) (by decide), nofun, nofun, nofun,
        Attended.place (.of_usb (by nofun)) _⟩
    | false => exact ⟨fun _ => .inl rfl, nofun, fun _ => rfl, nofun, Attended.place (.of_usb (by nofun)) _⟩
  | pointerDrop =>
    simp only [hplace] at hstep
    obtain ⟨rfl, rfl⟩ := Prod.mk.inj (Option.some.inj hstep)
    have hready := h.lost (.inl hplace)
    exact ⟨fun _ => .inl hready, nofun, fun _ => hready, nofun, Attended.place (.of_usb (by nofun)) _⟩
  | busyDrop ready =>
    simp only [hplace] at hstep
    have hdown' := hdown (by rw [hplace]; nofun)
    obtain ⟨rfl, rfl⟩ := Prod.mk.inj (Option.some.inj hstep)
    cases ready with
    | true =>
      exact ⟨fun hoff => .inl (hdown' hoff), nofun, nofun, fun _ => nofun, Attended.place (.of_usb (by nofun)) _⟩
    | false =>
      have hready := h.lost (.inr hplace)
      refine ⟨fun _ => .inl hready, nofun, nofun, fun _ => nofun, Attended.place ?_ _⟩
      exact .inr (.inr (.inr (.inr (.inr hready))))
  | wake =>
    simp only [hplace] at hstep
    have hdown' := hdown (by rw [hplace]; nofun)
    obtain ⟨rfl, rfl⟩ := Prod.mk.inj (Option.some.inj hstep)
    exact ⟨fun hoff => .inl (hdown' hoff), nofun, nofun, fun _ => h.busy (.inr hplace),
      Attended.place (.inr (.inr (.inl rfl))) _⟩
  | comparing slot =>
    simp only [hplace] at hstep
    have hdown' := hdown (by rw [hplace]; nofun)
    obtain ⟨rfl, rfl⟩ := Prod.mk.inj (Option.some.inj hstep)
    split
    all_goals exact ⟨fun hoff => .inl (hdown' hoff), nofun, nofun, nofun, Attended.place (.of_usb (by nofun)) _⟩
  | advancing | storing | pointerDone =>
    simp only [hplace] at hstep
    have hdown' := hdown (by rw [hplace]; nofun)
    obtain ⟨rfl, rfl⟩ := Prod.mk.inj (Option.some.inj hstep)
    exact ⟨fun hoff => .inl (hdown' hoff), nofun, nofun, nofun, Attended.place (.of_usb (by nofun)) _⟩
  | busyDone =>
    simp only [hplace] at hstep
    have hdown' := hdown (by rw [hplace]; nofun)
    obtain ⟨rfl, rfl⟩ := Prod.mk.inj (Option.some.inj hstep)
    exact ⟨fun hoff => .inl (hdown' hoff), nofun, nofun, fun _ => nofun, Attended.place (.of_usb (by nofun)) _⟩

/-- A reset leaves at most the report the controller has. -/
theorem reset_progress {e : DataCollect} (hinv : CollectInvariant (CollectHistory.of trace) s)
    (h : ProgressInvariant trace s) (hsame : e.enabled = s.enabled ∧ e.dcHidReady = s.dcHidReady ∧ e.usb = s.usb ∧
      e.dcEpBusy = s.dcEpBusy ∧ e.send = s.send ∧ e.owned = s.owned) :
    ProgressInvariant (trace ++ [CollectEvent.reset]) e := by
  obtain ⟨henabled, hready, husb, hbusy, hsend, howned⟩ := hsame
  refine ⟨?_, ?_, ?_, ?_, Attended.place ?_ _⟩
  · rw [henabled, hready, husb]
    exact h.down
  · rw [henabled, husb]
    exact h.changed
  · rw [hready, husb]
    exact h.lost
  · rw [husb, hbusy, hsend, howned]
    exact h.busy
  · by_cases hidle : s.usb = .idle
    · have hok := hinv.usb
      rw [hidle] at hok
      rcases hok with hfree | ⟨⟨hflying, -⟩, -⟩
      · refine .inl ?_
        rw [CollectHistory.of_append]
        exact pending_reset.trans (by rw [hfree.2.1]; rfl)
      · refine .inr (.inr (.inr (.inr (.inl ?_))))
        rw [howned, hflying]
        exact List.cons_ne_nil _ _
    · exact .of_usb (by rw [husb]; exact hidle)

theorem resetFifo_same (s : DataCollect) : s.resetFifo.enabled = s.enabled ∧ s.resetFifo.dcHidReady = s.dcHidReady ∧
    s.resetFifo.usb = s.usb ∧ s.resetFifo.dcEpBusy = s.dcEpBusy ∧ s.resetFifo.send = s.send ∧
      s.resetFifo.owned = s.owned := by
  unfold DataCollect.resetFifo
  split <;> exact ⟨rfl, rfl, rfl, rfl, rfl, rfl⟩

theorem collectStep_progress {op : CollectOp} (hinv : CollectInvariant (CollectHistory.of trace) s)
    (h : ProgressInvariant trace s) (hstep : collectStep s op = some (s', es)) :
    ProgressInvariant (trace ++ es) s' := by
  cases op with
  | write data rssi rxTicks =>
    simp only [collectStep, DataCollect.write] at hstep
    split at hstep
    · obtain ⟨rfl, rfl⟩ := Prod.mk.inj (Option.some.inj hstep)
      rw [List.append_nil]
      exact h
    split at hstep
    · obtain ⟨rfl, rfl⟩ := Prod.mk.inj (Option.some.inj hstep)
      rw [List.append_nil]
      exact h
    split at hstep
    · obtain ⟨rfl, rfl⟩ := Prod.mk.inj (Option.some.inj hstep)
      rw [List.append_nil]
      exact h
    · obtain ⟨rfl, rfl⟩ := Prod.mk.inj (Option.some.inj hstep)
      exact ⟨h.down, h.changed, h.lost, h.busy, Attended.place (.inr (.inr (.inl rfl))) _⟩
  | start trackerId =>
    obtain ⟨rfl, rfl⟩ := Prod.mk.inj (Option.some.inj hstep)
    exact reset_progress hinv h (resetFifo_same s)
  | stop =>
    obtain ⟨rfl, rfl⟩ := Prod.mk.inj (Option.some.inj hstep)
    exact reset_progress hinv h (resetFifo_same s)
  | forget trackerId =>
    simp only [collectStep] at hstep
    split at hstep
    · obtain ⟨rfl, rfl⟩ := Prod.mk.inj (Option.some.inj hstep)
      rw [List.append_nil]
      exact h
    · obtain ⟨rfl, rfl⟩ := Prod.mk.inj (Option.some.inj hstep)
      exact reset_progress hinv h (resetFifo_same s)
  | batchStart mask =>
    obtain ⟨rfl, rfl⟩ := Prod.mk.inj (Option.some.inj hstep)
    exact reset_progress hinv h (resetFifo_same s)
  | batchStop =>
    obtain ⟨rfl, rfl⟩ := Prod.mk.inj (Option.some.inj hstep)
    exact reset_progress hinv h (resetFifo_same s)
  | runSendWork =>
    simp only [collectStep] at hstep
    split at hstep
    case h_1 hidle =>
      split at hstep
      · obtain ⟨rfl, rfl⟩ := Prod.mk.inj (Option.some.inj hstep)
        rw [List.append_nil]
        refine ⟨h.down, h.changed, h.lost, fun husb hbusy => ?_, trivial⟩
        have howner := h.busy husb hbusy
        rw [hidle] at howner
        exact .inr (howner.resolve_left nofun)
      · cases hstep
    case h_2 => cases hstep
  | sendStep result => exact sendStep_progress hinv h hstep
  | ifaceReady ready =>
    simp only [collectStep] at hstep
    split at hstep
    case h_1 hidle =>
      split at hstep
      · cases hstep
      · obtain ⟨rfl, rfl⟩ := Prod.mk.inj (Option.some.inj hstep)
        refine ⟨fun hoff => .inr (congrArg _ hoff), fun ready' hplace => ?_, nofun, nofun,
          Attended.place (.of_usb (by nofun)) _⟩
        exact UsbThread.readySet.inj hplace
    case h_2 => cases hstep
  | complete =>
    simp only [collectStep] at hstep
    split at hstep
    case h_1 slot rest hidle howned =>
      split at hstep
      · obtain ⟨rfl, rfl⟩ := Prod.mk.inj (Option.some.inj hstep)
        have hdown : s.enabled = false → s.dcHidReady = false := fun hoff =>
          (h.down hoff).resolve_right (by rw [hidle]; nofun)
        exact ⟨fun hoff => .inl (hdown hoff), nofun, nofun, nofun, Attended.place (.of_usb (by nofun)) _⟩
      · cases hstep
    case h_2 => cases hstep
  | usbStep => exact usbStep_progress h hstep

theorem progress_invariant (hrun : collectSystem.RunWhere Undisturbed trace s) : ProgressInvariant trace s := by
  induction hrun with
  | start => exact ⟨fun _ => .inl rfl, nofun, nofun, nofun, .inl rfl⟩
  | snoc hrun _ htaken ih => exact collectStep_progress (collect_invariant hrun).1 ih htaken

end Progress

/-! ## The queue is correct -/

section Correct

variable {trace : List CollectEvent} {s : DataCollect}

/-- A slot the controller owns holds the oldest report. -/
theorem CollectInvariant.owned {h : CollectHistory} (hinv : CollectInvariant h s) {slot : ℕ} (hslot : slot ∈ s.owned) :
    slot = s.dcFifoRead ∧ s.owned = [slot] ∧ h.inFlight = true ∧ h.pending.head? = some (s.dcFifo slot) := by
  have hflying : Flying h s := by
    have husb := hinv.usb
    have hnone : s.owned = [] → Flying h s := fun hempty => by
      rw [hempty] at hslot
      cases hslot
    cases hplace : s.usb with
    | idle | wake =>
      rw [hplace] at husb
      exact husb.elim (fun hfree => hnone hfree.1) And.left
    | readySet ready =>
      rw [hplace] at husb
      cases ready with
      | false => exact husb.elim (fun hfree => hnone hfree.1) id
      | true => exact hnone husb.1
    | pointerDrop =>
      rw [hplace] at husb
      exact husb.elim (fun hfree => hnone hfree.1) id
    | busyDrop ready =>
      rw [hplace] at husb
      exact hnone husb.1
    | comparing | storing =>
      rw [hplace] at husb
      exact hnone husb.2.1
    | advancing =>
      rw [hplace] at husb
      exact hnone husb.1
    | pointerDone | busyDone =>
      rw [hplace] at husb
      exact hnone husb.1.1
  obtain ⟨howned, -, -, hflight, -, hne⟩ := hflying
  rw [howned] at hslot
  obtain rfl : slot = s.dcFifoRead := List.mem_singleton.mp hslot
  obtain ⟨report, rest, hpending⟩ := List.exists_cons_of_ne_nil hne
  have hring := hinv.ring
  rw [hpending] at hring
  exact ⟨rfl, howned, hflight, by rw [hpending, hring.head]; rfl⟩

instance (s : DataCollect) (op : CollectOp) : Decidable (Undisturbed s op) := by
  unfold Undisturbed
  split
  · split <;> infer_instance
  all_goals
    first
      | exact instDecidableTrue
      | exact match s.dcSubmittedReport with
        | none => decidable_of_iff (s.send.marking = false) ⟨fun h => ⟨nofun, h⟩, And.right⟩
        | some slot => decidable_of_iff (slot = s.dcFifoRead ∧ s.send.marking = false)
            ⟨fun h => ⟨fun _ heq => Option.some.inj heq ▸ h.1, h.2⟩, fun h => ⟨h.1 slot rfl, h.2⟩⟩

/-- The interface comes up and a session starts. -/
def connected : List CollectOp :=
  [.ifaceReady true, .usbStep, .usbStep, .usbStep, .start 3]

/-- A report is submitted and completed while a second one waits; then the session ends. -/
def twoReports : List CollectOp :=
  connected ++ [CollectOp.write [16] 40 1, .write [16] 41 2, .runSendWork] ++
    List.replicate 6 (CollectOp.sendStep .ok) ++
    [CollectOp.complete, .usbStep, .usbStep, .usbStep, .usbStep, .usbStep, .usbStep, .runSendWork] ++
      List.replicate 6 (CollectOp.sendStep .ok) ++ [CollectOp.stop]

end Correct

end Collect

end SlimeReceiver
