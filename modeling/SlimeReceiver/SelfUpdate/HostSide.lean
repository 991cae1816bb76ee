import SlimeReceiver.Ota.HostUpdate
import SlimeReceiver.SelfUpdate.Verification

/-! # The receiver's update by the host

`do_receiver_update` of `esb_ota.py` on one side of the USB link, the receiver's two threads on the other. The link may
lose reports in both directions, and every wait of the host may run out of time.

* **`HostPlace`**, **`HostPlace.act`**, **`HostPlace.read`** — `do_receiver_update`.
* **`receiverUpdateSystem`** — the host, the link and the receiver.
* **`Sent`** — the reports the host sends, and what they are for the receiver.
* **`activates_image`** — the receiver activates nothing but the image, and only when the host has told it to. -/

namespace SlimeReceiver.SelfUpdate

open Ota (UpdateArgs HidReport sendBegin sendData sendCommand writeReport receiverOtaId)

/-! ## The host -/

/-- Where `do_receiver_update` is. -/
inductive HostPlace
  | starting
  | awaitReady
  | streaming (seq : ℕ)
  /-- It reads what has come in meanwhile. -/
  | polling (seq : ℕ)
  | verifying
  | awaitVerified
  | activating
  | aborting
  | returned (success : Bool)
  /-- `struct.pack_into` has raised. -/
  | raised
  deriving DecidableEq

/-- What the host does by itself: it sends, or a time is up. -/
inductive HostAct
  | send
  | timeOut

/-- `TERMINAL_STATUSES`. -/
def OtaStatus.terminal : OtaStatus → Bool
  | .complete | .error | .verifyFail | .timeout | .boardMismatch | .sizeError | .flashError | .seqError => true
  | _ => false

/-- `send_abort(RECEIVER_OTA_ID)`. -/
def sendAbortReceiver : HidReport := writeReport [0xF7, BitVec.ofNat 8 receiverOtaId]

namespace HostPlace

/-- One step of the host, with what it sends. -/
def act (u : UpdateArgs) : HostAct → HostPlace → Option (HostPlace × List HidReport)
  | .send, .starting =>
    match sendBegin u receiverOtaId with
    | none => some (.raised, [])
    | some report => some (.awaitReady, [report])
  | .timeOut, .awaitReady => some (.returned false, [])
  | .send, .streaming seq =>
    if seq < u.totalPackets then
      match sendData receiverOtaId seq (u.chunk seq) with
      | none => some (.raised, [])
      | some report =>
        some (if (seq + 1) % 50 = 0 ∨ seq + 1 = u.totalPackets then .polling (seq + 1) else .streaming (seq + 1),
          [report])
    else some (.verifying, [])
  | .timeOut, .polling seq => some (.streaming seq, [])
  | .send, .verifying => some (.awaitVerified, [sendCommand true receiverOtaId])
  | .timeOut, .awaitVerified => some (.aborting, [])
  | .send, .aborting => some (.returned false, [sendAbortReceiver])
  | .send, .activating => some (.returned true, [sendCommand false receiverOtaId])
  | _, _ => none

/-- A status of the receiver is read. -/
def read (code : OtaStatus) : HostPlace → Option HostPlace
  | .awaitReady => match code with
    | .ready | .receiving => some (.streaming 0)
    | .boardMismatch | .sizeError | .error => some (.returned false)
    | _ => some .awaitReady
  | .polling seq => some (if code.terminal then .returned false else .polling seq)
  | .awaitVerified => match code with
    | .verifyOk => some .activating
    | .verifyFail | .error => some .aborting
    | _ => some .awaitVerified
  | _ => none

end HostPlace

/-! ## The system -/

/-- The bytes of a report. -/
def reportBytes (report : HidReport) : List (BitVec 8) := (List.range report.len).map report.data

/-- The host, the reports and the statuses on their way, and the receiver. -/
structure ReceiverWorld where
  host : HostPlace
  outbox : List HidReport
  inbox : List OtaStatus
  receiver : RcvOta

/-- The steps. -/
inductive ReceiverOp
  | host (act : HostAct)
  | read
  /-- The HID command thread takes a report. -/
  | deliver (answers : BeginAnswers)
  | handler (ok : Bool)
  | writer (ok : Bool) (garbage : ℕ → BitVec 8)
  | loseReport (i : ℕ)
  | loseStatus (i : ℕ)

/-- The statuses that are sent. -/
def statusesOf (es : List UpdateEvent) : List OtaStatus :=
  es.filterMap fun e => match e with
    | .status code => some code
    | _ => none

/-- What a step of the receiver does to the world. -/
def ReceiverWorld.after (w : ReceiverWorld) (outbox : List HidReport) (r : RcvOta × List UpdateEvent) :
    ReceiverWorld × List UpdateEvent :=
  ({ w with
    outbox := outbox
    inbox := w.inbox ++ statusesOf r.2
    receiver := r.1 }, r.2)

/-- One step; the events are those of the receiver. -/
def receiverStep (cfg : FlashConfig) (u : UpdateArgs) (w : ReceiverWorld) :
    ReceiverOp → Option (ReceiverWorld × List UpdateEvent)
  | .host act => (w.host.act u act).map fun r => ({ w with
      host := r.1
      outbox := w.outbox ++ r.2 }, [])
  | .read =>
    match w.inbox with
    | [] => none
    | code :: rest => (w.host.read code).map fun host => ({ w with
        host := host
        inbox := rest }, [])
  | .deliver answers =>
    match w.outbox with
    | [] => none
    | report :: rest => (updateStep cfg w.receiver (.hid (reportBytes report) answers)).map (w.after rest)
  | .handler ok => (updateStep cfg w.receiver (.handler ok)).map (w.after w.outbox)
  | .writer ok garbage => (updateStep cfg w.receiver (.writer ok garbage)).map (w.after w.outbox)
  | .loseReport i => some ({ w with outbox := w.outbox.eraseIdx i }, [])
  | .loseStatus i => some ({ w with inbox := w.inbox.eraseIdx i }, [])

/-- A receiver that has just booted, and a host that begins. -/
def receiverUpdateSystem (cfg : FlashConfig) (u : UpdateArgs) (flash : ℕ → BitVec 8) :
    EventSystem ReceiverWorld ReceiverOp UpdateEvent where
  init := ⟨.starting, [], [], .init flash⟩
  step := receiverStep cfg u

/-! ## What the reports say -/

/-- The reports the host sends. -/
inductive Sent (u : UpdateArgs) : HidReport → Prop
  | start {report : HidReport} : sendBegin u receiverOtaId = some report → Sent u report
  | data {seq : ℕ} {report : HidReport} : sendData receiverOtaId seq (u.chunk seq) = some report → Sent u report
  | command (verify : Bool) : Sent u (sendCommand verify receiverOtaId)
  | abort : Sent u sendAbortReceiver

/-- The BEGIN of the host asks for this. -/
def Requests (u : UpdateArgs) (request : BeginRequest) : Prop :=
  ∃ report, sendBegin u receiverOtaId = some report ∧ parseReport (reportBytes report) = .start (some request)

/-- What the host says to the receiver: its BEGIN, the packets of the image, and the commands. -/
def Report.Means (u : UpdateArgs) : Report → Prop
  | .start (some request) => Requests u request
  | .data (some (seq, bytes)) => u.chunk seq.toNat <+: bytes
  | .verify | .activate | .abort => True
  | _ => False

section Reports

variable {u : UpdateArgs} {report : HidReport} {pkt : List (BitVec 8)}

theorem reportBytes_getD (pkt : List (BitVec 8)) {k : ℕ} (hk : k < 64) :
    (reportBytes (writeReport pkt)).getD k 0 = pkt.getD k 0 := by
  have hlen : (writeReport pkt).len = 64 := rfl
  rw [reportBytes, hlen, List.getD_eq_getElem?_getD, List.getElem?_map, List.getElem?_range hk]
  rfl

theorem length_reportBytes (pkt : List (BitVec 8)) : (reportBytes (writeReport pkt)).length = 64 := by
  rw [reportBytes, List.length_map, List.length_range]
  rfl

/-- A number is read as it was written. -/
theorem le32_le32Bytes (x : BitVec 32) :
    le32 (x.setWidth 8) ((x >>> 8).setWidth 8) ((x >>> 16).setWidth 8) ((x >>> 24).setWidth 8) = x :=
  be32_be32Bytes x

/-- The head of a report decides what it is. -/
theorem parse_writeReport (pkt : List (BitVec 8)) : parseReport (reportBytes (writeReport pkt)) =
    if pkt.getD 0 0 = 0xF0 then .queryInfo
    else if pkt.getD 0 0 = 0xF2 then .start (some
      { imageSize := (le32 (pkt.getD 2 0) (pkt.getD 3 0) (pkt.getD 4 0) (pkt.getD 5 0)).toNat
        imageCrc32 := le32 (pkt.getD 6 0) (pkt.getD 7 0) (pkt.getD 8 0) (pkt.getD 9 0)
        protocolVer := pkt.getD 12 0
        boardTarget := ((reportBytes (writeReport pkt)).drop 13).take 47
        flashBase := (be16 (pkt.getD 61 0) (pkt.getD 62 0)).toNat * 4096 })
    else if pkt.getD 0 0 = 0xF3 then
      .data (some (be16 (pkt.getD 2 0) (pkt.getD 3 0), (reportBytes (writeReport pkt)).drop 4))
    else if pkt.getD 0 0 = 0xF5 then .verify
    else if pkt.getD 0 0 = 0xF6 then .activate
    else if pkt.getD 0 0 = 0xF7 then .abort
    else .unknown := by
  have hlength : ¬(reportBytes (writeReport pkt)).length < 64 := by
    rw [length_reportBytes]
    exact lt_irrefl _
  have hshort : ¬(reportBytes (writeReport pkt)).length < 4 := by
    rw [length_reportBytes]
    decide
  unfold parseReport
  dsimp only
  rw [if_neg hlength, if_neg hshort]
  simp only [reportBytes_getD pkt (by decide : 0 < 64), reportBytes_getD pkt (by decide : 2 < 64),
    reportBytes_getD pkt (by decide : 3 < 64), reportBytes_getD pkt (by decide : 4 < 64),
    reportBytes_getD pkt (by decide : 5 < 64), reportBytes_getD pkt (by decide : 6 < 64),
    reportBytes_getD pkt (by decide : 7 < 64), reportBytes_getD pkt (by decide : 8 < 64),
    reportBytes_getD pkt (by decide : 9 < 64), reportBytes_getD pkt (by decide : 12 < 64),
    reportBytes_getD pkt (by decide : 61 < 64), reportBytes_getD pkt (by decide : 62 < 64)]

/-- The request is for the image. -/
theorem Requests.image {request : BeginRequest} (h : Requests u request) :
    request.imageSize = u.imageSize ∧ request.imageCrc32 = u.firmware.crc32 := by
  obtain ⟨report, hreport, hparse⟩ := h
  unfold sendBegin at hreport
  split at hreport
  case isFalse => cases hreport
  case isTrue hfits =>
    obtain rfl := Option.some.inj hreport
    rw [parse_writeReport] at hparse
    obtain rfl := Option.some.inj (Report.start.inj hparse)
    have hsize : (le32 ((BitVec.ofNat 32 u.imageSize).setWidth 8) ((BitVec.ofNat 32 u.imageSize >>> 8).setWidth 8)
        ((BitVec.ofNat 32 u.imageSize >>> 16).setWidth 8)
        ((BitVec.ofNat 32 u.imageSize >>> 24).setWidth 8)).toNat = u.imageSize := by
      rw [le32_le32Bytes, BitVec.toNat_ofNat, Nat.mod_eq_of_lt hfits.2.1]
    exact ⟨hsize, le32_le32Bytes _⟩

theorem parse_sendBegin (h : sendBegin u receiverOtaId = some report) :
    ∃ request, parseReport (reportBytes report) = .start (some request) := by
  unfold sendBegin at h
  split at h
  case isFalse => cases h
  case isTrue =>
    obtain rfl := Option.some.inj h
    rw [parse_writeReport]
    exact ⟨_, rfl⟩

/-- The payload of a DATA report is the chunk, filled up with zeros. -/
theorem parse_sendData {seq : ℕ} (h : sendData receiverOtaId seq (u.chunk seq) = some report) :
    ∃ packet bytes, parseReport (reportBytes report) = .data (some (packet, bytes)) ∧
      u.chunk packet.toNat <+: bytes := by
  unfold sendData at h
  split at h
  case isFalse => cases h
  case isTrue hfits =>
    obtain rfl := Option.some.inj h
    rw [parse_writeReport]
    have hseq : be16 ((BitVec.ofNat 16 seq >>> 8).setWidth 8) ((BitVec.ofNat 16 seq).setWidth 8) = .ofNat 16 seq :=
      be16_be16Bytes _
    have hnat : (BitVec.ofNat 16 seq).toNat = seq := by rw [BitVec.toNat_ofNat, Nat.mod_eq_of_lt hfits.2]
    have hchunk : (u.chunk seq).length ≤ 60 := List.length_take_le _ _
    have hwhole : (u.chunk seq).take Ota.otaDataMaxPayload = u.chunk seq := List.take_of_length_le hchunk
    rw [hwhole]
    refine ⟨_, _, rfl, ?_⟩
    show u.chunk (be16 ((BitVec.ofNat 16 seq >>> 8).setWidth 8) ((BitVec.ofNat 16 seq).setWidth 8)).toNat <+: _
    rw [hseq, hnat]
    refine List.prefix_iff_getElem?.mpr fun i hi => ?_
    have hlen : 4 + i < 64 := by omega
    have hhead : ([0xF3, BitVec.ofNat 8 receiverOtaId] ++ be16Bytes (.ofNat 16 seq) : List (BitVec 8)).length = 4 := rfl
    have hplace : 4 + i - 4 = i := Nat.add_sub_cancel_left 4 i
    rw [List.getElem?_drop, reportBytes, List.getElem?_map,
      List.getElem?_range (show 4 + i < (writeReport _).len from hlen), Option.map_some, writeReport]
    dsimp only
    rw [List.getD_eq_getElem?_getD, List.getElem?_append_right (by omega), hhead, hplace, List.getElem?_eq_getElem hi]
    rfl

theorem Sent.means (h : Sent u report) : (parseReport (reportBytes report)).Means u := by
  cases h with
  | start hreport =>
    obtain ⟨request, hparse⟩ := parse_sendBegin hreport
    rw [hparse]
    exact ⟨_, hreport, hparse⟩
  | data hreport =>
    obtain ⟨packet, bytes, hparse, hprefix⟩ := parse_sendData hreport
    rw [hparse]
    exact hprefix
  | command verify => cases verify <;> trivial
  | abort => trivial

end Reports

/-! ## What the receiver takes of them -/

/-- The BEGIN a stop leads to. -/
def Stop.request : Stop → Option BeginRequest
  | .start request _ => some request
  | .abort => none

/-- The packet that is being copied. -/
def Flush.packet : Flush → Option (BitVec 16 × List (BitVec 8))
  | .data seq payload _ => some (seq, payload)
  | .verify => none

/-- The session a request is granted. -/
def Begins (cfg : FlashConfig) (q : BeginRequest) (size : ℕ) (crc : BitVec 32) (base : ℕ) : Prop :=
  size = q.imageSize ∧ crc = q.imageCrc32 ∧ ∃ answers, beginCheck cfg answers q = .ok base

namespace Handler

/-- The BEGIN under way. -/
def request : Handler → Option BeginRequest
  | .stopFlag k | .stopWake k | .stopJoin k | .stopped k => k.request
  | _ => none

/-- The packet under way. -/
def packet : Handler → Option (BitVec 16 × List (BitVec 8))
  | .filling seq payload _ | .copying seq payload _ => some (seq, payload)
  | .flushCheck k | .flushFill k | .flushPut k => k.packet
  | _ => none

/-- An event tells of what is under way: a session begins with the request, and the packet is accepted. -/
def Tells (cfg : FlashConfig) (p : Handler) : UpdateEvent → Prop
  | .began size crc base => ∃ q, p.request = some q ∧ Begins cfg q size crc base
  | .accepted seq payload => p.packet = some (seq, payload)
  | _ => True

end Handler

/-- What is under way comes from the host, and so does what is staged. -/
structure FromHost (cfg : FlashConfig) (u : UpdateArgs) (h : UpdateHistory) (s : RcvOta) : Prop where
  request : ∀ q, s.handler.request = some q → Requests u q
  packet : ∀ seq payload, s.handler.packet = some (seq, payload) → payload = u.chunk seq.toNat
  session : s.writer ≠ .none → ∃ q, Requests u q ∧ Begins cfg q h.size h.crc h.base
  bytes : h.bytes = u.firmware.data.take (h.packets * dataMaxPayload)

section Receiver

variable {cfg : FlashConfig} {u : UpdateArgs} {h : UpdateHistory} {s s' : RcvOta} {es : List UpdateEvent} {ok : Bool}
  {garbage : ℕ → BitVec 8}

/-- The HID command thread makes up no request and no packet. -/
theorem handlerStep_carries (hstep : s.handlerStep cfg ok = some (s', es)) :
    (∀ q, s'.handler.request = some q → s.handler.request = some q) ∧
      (∀ p, s'.handler.packet = some p → s.handler.packet = some p) ∧ ∀ e ∈ es, s.handler.Tells cfg e := by
  cases hplace : s.handler with
  | idle =>
    simp only [RcvOta.handlerStep, hplace] at hstep
    cases hstep
  | status | statusSend | fail | failCode =>
    simp only [RcvOta.handlerStep, hplace] at hstep
    cases hstep
    exact ⟨by rintro _ ⟨⟩, by rintro _ ⟨⟩, by simp [Handler.Tells]⟩
  | flushFill k =>
    simp only [RcvOta.handlerStep, hplace] at hstep
    cases hstep
    exact ⟨by rintro _ ⟨⟩, fun _ hp => hp, by simp [Handler.Tells]⟩
  | stopFlag k | stopWake k =>
    simp only [RcvOta.handlerStep, hplace] at hstep
    cases hstep
    exact ⟨fun _ hq => hq, by rintro _ ⟨⟩, by simp [Handler.Tells]⟩
  | filling seq payload copied =>
    simp only [RcvOta.handlerStep, hplace] at hstep
    split_ifs at hstep <;> cases hstep
    all_goals exact ⟨by rintro _ ⟨⟩, by simp [Handler.packet], by simp [Handler.Tells, Handler.packet]⟩
  | copying seq payload copied =>
    simp only [RcvOta.handlerStep, hplace] at hstep
    cases hstep
    refine ⟨fun q hq => ?_, fun p hp => ?_, by simp [Handler.Tells]⟩
    · dsimp only at hq
      split at hq <;> cases hq
    · dsimp only at hp
      split at hp <;> exact hp
  | flushCheck k =>
    simp only [RcvOta.handlerStep, hplace] at hstep
    cases hstep
    refine ⟨fun q hq => ?_, fun p hp => ?_, by simp [Handler.Tells]⟩
    · dsimp only at hq
      split at hq <;> cases hq
    · dsimp only at hp
      split at hp
      · cases hp
      · exact hp
  | flushPut k =>
    simp only [RcvOta.handlerStep, hplace, RcvOta.put] at hstep
    split_ifs at hstep <;> cases hstep
    · refine ⟨fun q hq => ?_, fun p hp => ?_, by simp [Handler.Tells]⟩
      · cases k <;> cases hq
      · cases k <;> exact hp
    · exact ⟨by rintro _ ⟨⟩, by rintro _ ⟨⟩, by simp [Handler.Tells]⟩
  | verifyPut | activatePut =>
    simp only [RcvOta.handlerStep, hplace, RcvOta.put] at hstep
    split_ifs at hstep <;> cases hstep <;> exact ⟨by rintro _ ⟨⟩, by rintro _ ⟨⟩, by simp [Handler.Tells]⟩
  | stopJoin k =>
    simp only [RcvOta.handlerStep, hplace] at hstep
    split at hstep <;> cases hstep
    · exact ⟨fun q hq => hq, by rintro _ ⟨⟩, by simp [Handler.Tells]⟩
    · exact ⟨by rintro _ ⟨⟩, by rintro _ ⟨⟩, by simp [Handler.Tells]⟩
  | stopped k =>
    simp only [RcvOta.handlerStep, hplace] at hstep
    cases k with
    | abort =>
      cases hstep
      exact ⟨by rintro _ ⟨⟩, by rintro _ ⟨⟩, by simp [Handler.Tells]⟩
    | start r answers =>
      simp only [RcvOta.afterStop] at hstep
      split at hstep
      case h_1 =>
        cases hstep
        exact ⟨by rintro _ ⟨⟩, by rintro _ ⟨⟩, by simp [Handler.Tells]⟩
      case h_2 base hcheck =>
        split at hstep <;> cases hstep
        · exact ⟨by rintro _ ⟨⟩, by rintro _ ⟨⟩, by simp [Handler.Tells]⟩
        · refine ⟨by rintro _ ⟨⟩, by rintro _ ⟨⟩, fun e he => ?_⟩
          obtain rfl := List.mem_singleton.mp he
          exact ⟨r, rfl, rfl, rfl, answers, hcheck⟩

/-- The writer has no part in it. -/
theorem writerStep_carries (hstep : s.writerStep cfg ok garbage = some (s', es)) :
    s'.handler = s.handler ∧ ∀ (p : Handler), ∀ e ∈ es, p.Tells cfg e := by
  unfold RcvOta.writerStep at hstep
  repeat' split at hstep
  all_goals cases hstep <;> simp [Handler.Tells]

/-- Where a report takes the HID command thread. -/
inductive HidPlace (s : RcvOta) : Report → Handler → Prop
  | quiet {report : Report} {p : Handler} : p.request = none → p.packet = none → p ≠ .activatePut →
      HidPlace s report p
  | request {q : BeginRequest} {p : Handler} : p.request = some q → p.packet = none → p ≠ .activatePut →
      HidPlace s (.start (some q)) p
  | packet {seq : BitVec 16} {bytes : List (BitVec 8)} : s.state.opened = true →
      HidPlace s (.data (some (seq, bytes))) (.filling seq (bytes.take (s.payloadLen seq)) 0)
  | activate : HidPlace s .activate .activatePut

theorem processHid_place {data : List (BitVec 8)} (answers : BeginAnswers) (hidle : s.handler = .idle) :
    HidPlace s (parseReport data) (s.processHid cfg answers data).handler := by
  have hsame {report : Report} : HidPlace s report s.handler := by
    rw [hidle]
    exact .quiet rfl rfl nofun
  unfold RcvOta.processHid
  split
  · exact hsame
  cases parseReport data with
  | queryInfo => exact hsame
  | start request =>
    dsimp only
    split
    · exact .quiet rfl rfl nofun
    · unfold RcvOta.handleBegin
      split
      · exact hsame
      · split
        · exact .quiet rfl rfl nofun
        · unfold RcvOta.stopWriter
          dsimp only
          split <;> exact .request rfl rfl nofun
  | abort =>
    unfold RcvOta.stopWriter
    dsimp only
    split <;> exact .quiet rfl rfl nofun
  | data body =>
    dsimp only
    split
    · exact .quiet rfl rfl nofun
    · unfold RcvOta.handleData
      split
      · exact hsame
      rename_i hstate
      have hopen : s.state.opened = true := by
        rw [not_and_or, not_not, not_not] at hstate
        rcases hstate with hstate | hstate <;> rw [hstate] <;> rfl
      repeat' split
      all_goals first | exact hsame | exact .quiet rfl rfl nofun | exact .packet hopen
  | verify =>
    dsimp only
    split
    · exact .quiet rfl rfl nofun
    · unfold RcvOta.handleVerify
      split
      · exact .quiet rfl rfl nofun
      split
      · exact .quiet rfl rfl nofun
      · dsimp only
        split <;> exact .quiet rfl rfl nofun
  | activate =>
    dsimp only
    split
    · exact .quiet rfl rfl nofun
    · unfold RcvOta.handleActivate
      split
      · exact .quiet rfl rfl nofun
      · exact .activate
  | unknown =>
    dsimp only
    split
    · exact .quiet rfl rfl nofun
    · exact hsame

/-- A report of the host asks for the image, or brings a packet of it. -/
theorem HidPlace.fromHost {report : Report} {p : Handler} (hplace : HidPlace s report p) (hmeans : report.Means u)
    (hopened : s.state.opened = true → s.imageSize = u.imageSize) :
    (∀ q, p.request = some q → Requests u q) ∧
      ∀ seq payload, p.packet = some (seq, payload) → payload = u.chunk seq.toNat := by
  cases hplace with
  | quiet hrequest hpacket _ =>
    rw [hrequest, hpacket]
    exact ⟨by rintro _ ⟨⟩, by rintro _ _ ⟨⟩⟩
  | request hrequest hpacket _ =>
    rw [hrequest, hpacket]
    exact ⟨fun q' hq => Option.some.inj hq ▸ hmeans, by rintro _ _ ⟨⟩⟩
  | @packet seq bytes hopen =>
    refine ⟨by rintro _ ⟨⟩, fun seq' payload hpacket => ?_⟩
    obtain ⟨rfl, rfl⟩ := Prod.mk.inj (Option.some.inj hpacket)
    have hprefix : u.chunk seq.toNat <+: bytes := hmeans
    have hlength : (u.chunk seq.toNat).length = min dataMaxPayload (u.imageSize - seq.toNat * dataMaxPayload) := by
      rw [Ota.UpdateArgs.chunk, List.length_take, List.length_drop]
      rfl
    rw [RcvOta.payloadLen, hopened hopen, ← hlength]
    exact (List.prefix_iff_eq_take.mp hprefix).symm
  | activate => exact ⟨by rintro _ ⟨⟩, by rintro _ _ ⟨⟩⟩

/-- The next packet of the image is appended. -/
theorem bytes_accept {payload : List (BitVec 8)} {seq : BitVec 16}
    (hbytes : h.bytes = u.firmware.data.take (h.packets * dataMaxPayload)) (hseq : seq.toNat = h.packets)
    (hpayload : payload = u.chunk seq.toNat) :
    h.bytes ++ payload = u.firmware.data.take ((h.packets + 1) * dataMaxPayload) := by
  rw [hbytes, hpayload, hseq, Nat.succ_mul, List.take_add]
  rfl

/-- One event of a session. -/
theorem FromHost.follow (hfrom : FromHost cfg u h s) {e : UpdateEvent} (hanswers : h.Answers e)
    (hmanned : s'.writer ≠ .none → s.writer ≠ .none ∨ ∃ size crc base, e = .began size crc base)
    (htells : s.handler.Tells cfg e)
    (hrequest : ∀ q, s'.handler.request = some q → s.handler.request = some q)
    (hpacket : ∀ p, s'.handler.packet = some p → s.handler.packet = some p) : FromHost cfg u (h.follow e) s' := by
  refine ⟨fun q hq => hfrom.request q (hrequest q hq), fun seq payload hp => hfrom.packet seq payload (hpacket _ hp),
    fun hnow => ?_, ?_⟩
  · cases e with
    | began size crc base =>
      obtain ⟨q, hq, hbegins⟩ := htells
      exact ⟨q, hfrom.request q hq, hbegins⟩
    | accepted | submitted | attempted | pageFailed | released | verified | verifyFailed | status | activating
    | aborted =>
      rcases hmanned hnow with hbefore | ⟨size, crc, base, hbegan⟩
      · exact hfrom.session hbefore
      · cases hbegan
  · cases e with
    | began => rfl
    | accepted seq payload => exact bytes_accept hfrom.bytes hanswers.1 (hfrom.packet seq payload htells)
    | submitted | attempted | pageFailed | released | verified | verifyFailed | status | activating | aborted =>
      exact hfrom.bytes

/-- A step of the receiver, with a report of the host if one is taken. -/
theorem updateStep_fromHost {op : UpdateOp} (hown : UpdateInvariant h s) (hver : SessionInvariant cfg h s)
    (hfrom : FromHost cfg u h s) (hop : ∀ data answers, op = .hid data answers → (parseReport data).Means u)
    (hstep : updateStep cfg s op = some (s', es)) : FromHost cfg u (es.foldl UpdateHistory.follow h) s' := by
  have hanswers := (updateStep_verify hown hver hstep).2
  have hlawful := (updateStep_own hown hstep).2
  cases op with
  | hid data answers =>
    simp only [updateStep] at hstep
    split at hstep
    case h_2 => cases hstep
    case h_1 hidle =>
      cases hstep
      have hopened : s.state.opened = true → s.imageSize = u.imageSize := by
        intro hopen
        have hmanned : s.writer ≠ .none := by
          intro hnone
          rcases (hown.unmanned hnone).state (by rw [hidle]; rintro _ ⟨⟩) with hstate | hstate
          · rw [hstate] at hopen
            cases hopen
          · rw [hstate] at hopen
            cases hopen
        obtain ⟨q, hq, hbegins⟩ := hfrom.session hmanned
        rw [(hver.session hmanned).counted.size, hbegins.1, hq.image.1]
      have hplace : HidPlace s (parseReport data) (s.processHid cfg answers data).handler :=
        processHid_place answers hidle
      obtain ⟨hrequest, hpacket⟩ := hplace.fromHost (hop data answers rfl) hopened
      refine ⟨hrequest, hpacket, fun hmanned => hfrom.session ?_, hfrom.bytes⟩
      obtain ⟨st, p, heq, -⟩ := processHid_spec cfg answers data s hidle
      rw [heq] at hmanned
      exact hmanned
  | handler ok =>
    obtain ⟨hrequest, hpacket, htells⟩ := handlerStep_carries hstep
    have hmanned := handlerStep_writer hstep
    obtain rfl | ⟨e, rfl, -⟩ := hlawful
    · refine ⟨fun q hq => hfrom.request q (hrequest q hq),
        fun seq payload hp => hfrom.packet seq payload (hpacket _ hp), fun hnow => hfrom.session ?_, hfrom.bytes⟩
      rcases hmanned with hsame | ⟨-, hnone, -⟩ | ⟨size, crc, base, hbegan⟩
      · rwa [← hsame]
      · exact absurd hnone hnow
      · cases hbegan
    · refine hfrom.follow (hanswers e (List.mem_singleton_self e)) (fun hnow => ?_)
        (htells e (List.mem_singleton_self e)) hrequest hpacket
      rcases hmanned with hsame | ⟨-, hnone, -⟩ | ⟨size, crc, base, hbegan⟩
      · exact .inl (by rwa [← hsame])
      · exact absurd hnone hnow
      · exact .inr ⟨size, crc, base, (List.mem_singleton.mp hbegan).symm⟩
  | writer ok garbage =>
    obtain ⟨hhandler, htells⟩ := writerStep_carries hstep
    have hmanned : s.writer ≠ .none := by
      intro hnone
      simp only [updateStep, RcvOta.writerStep, hnone] at hstep
      cases hstep
    obtain rfl | ⟨e, rfl, -⟩ := hlawful
    · exact ⟨fun q hq => hfrom.request q (hhandler ▸ hq),
        fun seq payload hp => hfrom.packet seq payload (hhandler ▸ hp), fun _ => hfrom.session hmanned, hfrom.bytes⟩
    · exact hfrom.follow (hanswers e (List.mem_singleton_self e)) (fun _ => .inl hmanned)
        (htells s.handler e (List.mem_singleton_self e)) (fun q hq => hhandler ▸ hq) fun p hp => hhandler ▸ hp

/-! ## The command to activate -/

/-- An activation is asked for. -/
def RcvOta.Activates (s : RcvOta) : Prop :=
  s.handler = .activatePut ∨ .activate ∈ s.pageWriteMsgq ∨ s.writer = .got .activate ∨ s.writer = .activate

/-- Only a report that says so asks for it. -/
theorem processHid_activates {data : List (BitVec 8)} {answers : BeginAnswers} (hidle : s.handler = .idle)
    (hact : (s.processHid cfg answers data).Activates) : s.Activates ∨ parseReport data = .activate := by
  have hplace : HidPlace s (parseReport data) (s.processHid cfg answers data).handler := processHid_place answers hidle
  obtain ⟨st, p, heq, -⟩ := processHid_spec cfg answers data s hidle
  rw [heq] at hact hplace
  rcases hact with hput | hrest
  · have hput : p = .activatePut := hput
    subst hput
    generalize parseReport data = report at hplace
    cases hplace with
    | quiet _ _ hne | request _ _ hne => exact absurd rfl hne
    | activate => exact .inr rfl
  · exact .inl (.inr hrest)

theorem handlerStep_activates (hstep : s.handlerStep cfg ok = some (s', es)) (hact : s'.Activates) : s.Activates := by
  -- away from the submission of an activation the queue gains other commands at most
  have hkeep : s'.handler ≠ .activatePut → (.activate ∈ s'.pageWriteMsgq → .activate ∈ s.pageWriteMsgq) →
      (s'.writer = s.writer ∨ s'.writer = .none ∨ s'.writer = .loop) → s.Activates := by
    intro hput hqueue hwriter
    rcases hact with hnow | hnow | hnow | hnow
    · exact absurd hnow hput
    · exact .inr (.inl (hqueue hnow))
    · rcases hwriter with hsame | hother | hother
      · exact .inr (.inr (.inl (hsame ▸ hnow)))
      · cases hother.symm.trans hnow
      · cases hother.symm.trans hnow
    · rcases hwriter with hsame | hother | hother
      · exact .inr (.inr (.inr (hsame ▸ hnow)))
      · cases hother.symm.trans hnow
      · cases hother.symm.trans hnow
  cases hplace : s.handler with
  | activatePut => exact .inl hplace
  | idle =>
    simp only [RcvOta.handlerStep, hplace] at hstep
    cases hstep
  | status | statusSend | fail | failCode | flushFill | stopFlag =>
    simp only [RcvOta.handlerStep, hplace] at hstep
    cases hstep
    exact hkeep (by rintro ⟨⟩) id (.inl rfl)
  | filling =>
    simp only [RcvOta.handlerStep, hplace] at hstep
    split_ifs at hstep <;> cases hstep <;> exact hkeep (by rintro ⟨⟩) id (.inl rfl)
  | copying | flushCheck =>
    simp only [RcvOta.handlerStep, hplace] at hstep
    cases hstep
    refine hkeep ?_ id (.inl rfl)
    dsimp only
    split <;> rintro ⟨⟩
  | flushPut k =>
    simp only [RcvOta.handlerStep, hplace, RcvOta.put] at hstep
    split_ifs at hstep <;> cases hstep
    · refine hkeep ?_ (by simp) (.inl rfl)
      cases k <;> rintro ⟨⟩
    · exact hkeep (by rintro ⟨⟩) id (.inl rfl)
  | verifyPut =>
    simp only [RcvOta.handlerStep, hplace, RcvOta.put] at hstep
    split_ifs at hstep <;> cases hstep
    · exact hkeep (by rintro ⟨⟩) (by simp) (.inl rfl)
    · exact hkeep (by rintro ⟨⟩) id (.inl rfl)
  | stopWake k =>
    simp only [RcvOta.handlerStep, hplace] at hstep
    cases hstep
    refine hkeep (by rintro ⟨⟩) ?_ (.inl rfl)
    dsimp only
    split <;> simp
  | stopJoin k =>
    simp only [RcvOta.handlerStep, hplace] at hstep
    split at hstep <;> cases hstep
    · exact hkeep (by rintro ⟨⟩) id (.inr (.inl rfl))
    · exact hkeep (by rintro ⟨⟩) id (.inl rfl)
  | stopped k =>
    simp only [RcvOta.handlerStep, hplace] at hstep
    cases k with
    | abort =>
      cases hstep
      exact hkeep (by rintro ⟨⟩) id (.inl rfl)
    | start r answers =>
      simp only [RcvOta.afterStop] at hstep
      split at hstep
      · cases hstep
        exact hkeep (by rintro ⟨⟩) id (.inl rfl)
      · split at hstep <;> cases hstep
        · exact hkeep (by rintro ⟨⟩) id (.inl rfl)
        · exact hkeep (by rintro ⟨⟩) (by rintro ⟨⟩) (.inr (.inr rfl))

/-- The command thread never enters the activation. -/
theorem handlerStep_activating (hstep : s.handlerStep cfg ok = some (s', es)) : .activating ∉ es := by
  cases hplace : s.handler with
  | stopped k =>
    simp only [RcvOta.handlerStep, hplace] at hstep
    cases k with
    | abort =>
      cases hstep
      simp
    | start r answers =>
      simp only [RcvOta.afterStop] at hstep
      repeat' split at hstep
      all_goals
        cases hstep
        simp
  | _ =>
    simp only [RcvOta.handlerStep, hplace, RcvOta.put] at hstep
    repeat' split at hstep
    all_goals cases hstep <;> simp

theorem writerStep_activates (hstep : s.writerStep cfg ok garbage = some (s', es)) :
    (s'.Activates → s.Activates) ∧ (.activating ∈ es → s.Activates) := by
  have hhandler := (writerStep_carries hstep).1
  -- a writer that does not come to a command leaves things as they are
  have hkeep : s'.pageWriteMsgq = s.pageWriteMsgq → s'.writer ≠ .got .activate → s'.writer ≠ .activate →
      s'.Activates → s.Activates := by
    rintro hqueue hgot hactivate (hnow | hnow | hnow | hnow)
    · exact .inl (hhandler ▸ hnow)
    · exact .inr (.inl (hqueue ▸ hnow))
    · exact absurd hnow hgot
    · exact absurd hnow hactivate
  cases hplace : s.writer with
  | none | exited | gone =>
    simp only [RcvOta.writerStep, hplace] at hstep
    cases hstep
  | get =>
    simp only [RcvOta.writerStep, hplace] at hstep
    split at hstep
    · cases hstep
    · rename_i cmd rest hqueue
      cases hstep
      refine ⟨?_, by simp⟩
      rintro (hnow | hnow | hnow | hnow)
      · exact .inl (hhandler ▸ hnow)
      · exact .inr (.inl (hqueue ▸ List.mem_cons_of_mem _ hnow))
      · obtain rfl := Writer.got.inj hnow
        exact .inr (.inl (hqueue ▸ List.mem_cons_self))
      · cases hnow
  | got cmd =>
    simp only [RcvOta.writerStep, hplace] at hstep
    split at hstep
    · cases hstep
      exact ⟨hkeep rfl (by rintro ⟨⟩) (by rintro ⟨⟩), by simp⟩
    · cases cmd <;> cases hstep
      · refine ⟨hkeep rfl ?_ ?_, by simp⟩
        · dsimp only [RcvOta.startCommand]
          split <;> rintro ⟨⟩
        · dsimp only [RcvOta.startCommand]
          split <;> rintro ⟨⟩
      · exact ⟨hkeep rfl (by rintro ⟨⟩) (by rintro ⟨⟩), by simp⟩
      · exact ⟨fun _ => .inr (.inr (.inl hplace)), by simp⟩
      · exact ⟨hkeep rfl (by rintro ⟨⟩) (by rintro ⟨⟩), by simp⟩
  | activate => exact ⟨fun _ => .inr (.inr (.inr hplace)), fun _ => .inr (.inr (.inr hplace))⟩
  | loop | verify | activateRun =>
    simp only [RcvOta.writerStep, hplace] at hstep
    cases hstep
    refine ⟨hkeep rfl ?_ ?_, by simp⟩
    all_goals
      dsimp only
      repeat' split
      all_goals rintro ⟨⟩
  | erase | program =>
    simp only [RcvOta.writerStep, hplace] at hstep
    split at hstep <;> cases hstep <;> exact ⟨hkeep rfl (by rintro ⟨⟩) (by rintro ⟨⟩), by simp⟩
  | reading pos crc =>
    simp only [RcvOta.writerStep, hplace] at hstep
    split_ifs at hstep <;> cases hstep <;> exact ⟨hkeep rfl (by rintro ⟨⟩) (by rintro ⟨⟩), by simp⟩
  | setError | give | verifyFail | verifyFailCode | verifyOk | status | activateFail | activateFailCode | completed =>
    simp only [RcvOta.writerStep, hplace] at hstep
    cases hstep
    exact ⟨hkeep rfl (by rintro ⟨⟩) (by rintro ⟨⟩), by simp⟩
  | statusSend code next =>
    simp only [RcvOta.writerStep, hplace] at hstep
    cases hstep
    cases next <;> exact ⟨hkeep rfl (by rintro ⟨⟩) (by rintro ⟨⟩), by simp⟩

end Receiver

/-! ## The update -/

/-- The receiver has verified the image, and nothing else. -/
def Confirmed (u : UpdateArgs) (trace : List UpdateEvent) : Prop :=
  ∃ earlier later, trace = earlier ++ later ∧ (UpdateHistory.of earlier).verified = true ∧
    (UpdateHistory.of earlier).bytes = u.firmware.data

theorem Confirmed.append {u : UpdateArgs} {trace : List UpdateEvent} (h : Confirmed u trace) (es : List UpdateEvent) :
    Confirmed u (trace ++ es) := by
  obtain ⟨earlier, later, rfl, hverified, hbytes⟩ := h
  exact ⟨earlier, later ++ es, List.append_assoc _ _ _, hverified, hbytes⟩

/-- What holds of the host, the link and the receiver together. -/
structure WorldInvariant (cfg : FlashConfig) (u : UpdateArgs) (trace : List UpdateEvent) (w : ReceiverWorld) :
    Prop where
  sent : ∀ report ∈ w.outbox, Sent u report
  receiver : FromHost cfg u (UpdateHistory.of trace) w.receiver
  /-- A good answer is the answer to this image. -/
  confirmed : .verifyOk ∈ w.inbox ∨ w.host = .activating ∨ w.host = .returned true → Confirmed u trace
  /-- The command to activate is the host's last. -/
  told : w.receiver.Activates ∨ (∃ report ∈ w.outbox, parseReport (reportBytes report) = .activate) →
    w.host = .returned true

section World

variable {cfg : FlashConfig} {u : UpdateArgs} {flash : ℕ → BitVec 8} {trace : List UpdateEvent}
  {w w' : ReceiverWorld} {es : List UpdateEvent}

/-- The receiver runs as it does by itself. -/
def receiverProjection (cfg : FlashConfig) (u : UpdateArgs) (flash : ℕ → BitVec 8) :
    (receiverUpdateSystem cfg u flash).Projection (selfUpdateSystem cfg flash) where
  state := ReceiverWorld.receiver
  event := some
  init := rfl
  step w op w' es hstep := by
    rw [List.filterMap_some]
    cases op with
    | host act =>
      obtain ⟨r, -, heq⟩ := Option.map_eq_some_iff.mp hstep
      obtain ⟨rfl, rfl⟩ := Prod.mk.inj heq
      exact .inl ⟨rfl, rfl⟩
    | read =>
      simp only [receiverUpdateSystem, receiverStep] at hstep
      split at hstep
      · cases hstep
      · obtain ⟨host, -, heq⟩ := Option.map_eq_some_iff.mp hstep
        obtain ⟨rfl, rfl⟩ := Prod.mk.inj heq
        exact .inl ⟨rfl, rfl⟩
    | deliver answers =>
      simp only [receiverUpdateSystem, receiverStep] at hstep
      split at hstep
      · cases hstep
      · obtain ⟨r, hr, heq⟩ := Option.map_eq_some_iff.mp hstep
        obtain ⟨rfl, rfl⟩ := Prod.mk.inj heq
        exact .inr ⟨.hid _ answers, hr⟩
    | handler ok =>
      obtain ⟨r, hr, heq⟩ := Option.map_eq_some_iff.mp hstep
      obtain ⟨rfl, rfl⟩ := Prod.mk.inj heq
      exact .inr ⟨.handler ok, hr⟩
    | writer ok garbage =>
      obtain ⟨r, hr, heq⟩ := Option.map_eq_some_iff.mp hstep
      obtain ⟨rfl, rfl⟩ := Prod.mk.inj heq
      exact .inr ⟨.writer ok garbage, hr⟩
    | loseReport i | loseStatus i =>
      obtain ⟨rfl, rfl⟩ := Prod.mk.inj (Option.some.inj hstep)
      exact .inl ⟨rfl, rfl⟩

theorem receiver_run (hrun : (receiverUpdateSystem cfg u flash).Run trace w) :
    (selfUpdateSystem cfg flash).Run trace w.receiver := by
  have hprojected := (receiverProjection cfg u flash).run hrun
  have hall : trace.filterMap (some : UpdateEvent → Option UpdateEvent) = trace := List.filterMap_some
  have hsame : trace.filterMap (receiverProjection cfg u flash).event = trace := hall
  rwa [hsame] at hprojected

/-- What a step of the host leads to: its last command follows a good answer. -/
structure HostStep (u : UpdateArgs) (place place' : HostPlace) (reports : List HidReport) : Prop where
  sent : ∀ report ∈ reports, Sent u report
  calm : place' ≠ .activating
  before : place ≠ .returned true
  good : place' = .returned true → place = .activating
  last : ∀ report ∈ reports, parseReport (reportBytes report) = .activate → place' = .returned true

theorem hostStep_of_act {act : HostAct} {place place' : HostPlace} {reports : List HidReport}
    (hact : place.act u act = some (place', reports)) : HostStep u place place' reports := by
  -- a step that sends nothing
  have hquiet : reports = [] → place' ≠ .activating → place' ≠ .returned true → place ≠ .returned true →
      HostStep u place place' reports := by
    rintro rfl hcalm hnot hbefore
    exact ⟨nofun, hcalm, hbefore, fun hgood => absurd hgood hnot, nofun⟩
  -- a step that sends another report
  have hone : ∀ report, reports = [report] → Sent u report → parseReport (reportBytes report) ≠ .activate →
      place' ≠ .activating → place' ≠ .returned true → place ≠ .returned true → HostStep u place place' reports := by
    rintro report rfl hsent hparse hcalm hnot hbefore
    refine ⟨fun r hr => List.mem_singleton.mp hr ▸ hsent, hcalm, hbefore, fun hgood => absurd hgood hnot,
      fun r hr hparse' => absurd hparse' ?_⟩
    rwa [List.mem_singleton.mp hr]
  cases act with
  | timeOut =>
    cases place <;> first | (cases hact; done) | (cases hact; exact hquiet rfl nofun nofun nofun)
  | send =>
    cases place with
    | starting =>
      simp only [HostPlace.act] at hact
      split at hact
      · cases hact
        exact hquiet rfl nofun nofun nofun
      · rename_i report hreport
        cases hact
        obtain ⟨request, hparse⟩ := parse_sendBegin hreport
        exact hone report rfl (.start hreport) (by rw [hparse]; nofun) nofun nofun nofun
    | streaming seq =>
      simp only [HostPlace.act] at hact
      split at hact
      · split at hact
        · cases hact
          exact hquiet rfl nofun nofun nofun
        · rename_i report hreport
          cases hact
          obtain ⟨packet, bytes, hparse, -⟩ := parse_sendData hreport
          refine hone report rfl (.data hreport) (by rw [hparse]; nofun) ?_ ?_ nofun
          · split <;> nofun
          · split <;> nofun
      · cases hact
        exact hquiet rfl nofun nofun nofun
    | verifying =>
      cases hact
      exact hone _ rfl (.command true) nofun nofun nofun nofun
    | aborting =>
      cases hact
      exact hone _ rfl .abort nofun nofun nofun nofun
    | activating =>
      cases hact
      exact ⟨fun r hr => List.mem_singleton.mp hr ▸ .command false, nofun, nofun, fun _ => rfl, fun _ _ _ => rfl⟩
    | awaitReady | polling | awaitVerified | returned | raised => cases hact

/-- What reading a status leads to. -/
theorem read_activating {code : OtaStatus} {place place' : HostPlace} (hread : place.read code = some place') :
    (place' = .activating → code = .verifyOk) ∧ place' ≠ .returned true ∧ place ≠ .returned true := by
  cases place with
  | awaitReady => cases code <;> cases hread <;> exact ⟨nofun, nofun, nofun⟩
  | polling seq => cases code <;> cases hread <;> exact ⟨nofun, nofun, nofun⟩
  | awaitVerified =>
    cases code <;> cases hread
    all_goals exact ⟨by simp, nofun, nofun⟩
  | starting | streaming | verifying | activating | aborting | returned | raised => cases hread

/-- A step of the receiver's threads. -/
theorem updateStep_activates {op : UpdateOp} {s s' : RcvOta} (hstep : updateStep cfg s op = some (s', es)) :
    (s'.Activates → s.Activates ∨ ∃ data answers, op = .hid data answers ∧ parseReport data = .activate) ∧
      (.activating ∈ es → s.Activates) := by
  cases op with
  | hid data answers =>
    simp only [updateStep] at hstep
    split at hstep
    case h_2 => cases hstep
    case h_1 hidle =>
      cases hstep
      refine ⟨fun hact => ?_, by simp⟩
      exact (processHid_activates hidle hact).imp_right fun hparse => ⟨data, answers, rfl, hparse⟩
  | handler ok =>
    refine ⟨fun hact => .inl (handlerStep_activates hstep hact), fun hmem => ?_⟩
    exact absurd hmem (handlerStep_activating hstep)
  | writer ok garbage =>
    obtain ⟨hact, hmem⟩ := writerStep_activates hstep
    exact ⟨fun hnow => .inl (hact hnow), hmem⟩

/-- The staging region of a session that was verified holds the image. -/
theorem sound_of_verified {s : RcvOta} (hrun : (selfUpdateSystem cfg flash).Run trace s)
    (hfrom : FromHost cfg u (UpdateHistory.of trace) s) (hmanned : s.writer ≠ .none)
    (hverified : (UpdateHistory.of trace).verified = true) :
    Sound (UpdateHistory.of trace) s.flash ∧ (UpdateHistory.of trace).bytes = u.firmware.data := by
  have hsound := (((session_invariant hrun).1.session hmanned).stage.sound hverified).sound hverified
  obtain ⟨q, hq, hbegins⟩ := hfrom.session hmanned
  refine ⟨hsound, ?_⟩
  have hlength : (UpdateHistory.of trace).bytes.length = u.firmware.data.length := by
    rw [hsound.whole, hbegins.1, hq.image.1]
    rfl
  rw [hfrom.bytes]
  rw [hfrom.bytes, List.length_take] at hlength
  exact List.take_of_length_le (by omega)

/-- A good answer, and the activation, come only in a session that was verified. -/
theorem verified_of_answer {s s' : RcvOta} {op : UpdateOp} (hrun : (selfUpdateSystem cfg flash).Run trace s)
    (hstep : updateStep cfg s op = some (s', es)) (hgood : .status .verifyOk ∈ es ∨ .activating ∈ es) :
    s.writer ≠ .none ∧ (UpdateHistory.of trace).verified = true := by
  have hver := (session_invariant hrun).1
  have hown := (update_invariant hrun).1
  have hanswers := (updateStep_verify hown hver hstep).2
  refine ⟨fun hnone => ?_, hgood.elim (fun hmem => hanswers _ hmem rfl) fun hmem => hanswers _ hmem⟩
  cases op with
  | hid data answers =>
    simp only [updateStep] at hstep
    split at hstep
    · cases hstep
      simp at hgood
    · cases hstep
  | handler ok =>
    have hplain := (handlerStep_unverified (h := UpdateHistory.of trace) (hown.unmanned hnone) hnone
      (hver.unmanned hnone) hstep).2
    exact (hgood.elim (fun hmem => hplain _ hmem rfl) (fun hmem => hplain _ hmem)).elim
  | writer ok garbage =>
    simp only [updateStep, RcvOta.writerStep, hnone] at hstep
    cases hstep

/-- A step of the receiver keeps the invariant. -/
theorem WorldInvariant.receive (hinv : WorldInvariant cfg u trace w)
    (hrun : (selfUpdateSystem cfg flash).Run trace w.receiver) {op : UpdateOp} {r : RcvOta × List UpdateEvent}
    {outbox : List HidReport} (houtbox : ∀ report ∈ outbox, report ∈ w.outbox)
    (hop : ∀ data answers, op = .hid data answers → ∃ report ∈ w.outbox, data = reportBytes report)
    (hstep : updateStep cfg w.receiver op = some r) :
    WorldInvariant cfg u (trace ++ r.2) (w.after outbox r).1 := by
  have hver := (session_invariant hrun).1
  have hown := (update_invariant hrun).1
  refine ⟨fun report hmem => hinv.sent report (houtbox report hmem), ?_, ?_, ?_⟩
  · rw [UpdateHistory.of_append]
    refine updateStep_fromHost hown hver hinv.receiver (fun data answers heq => ?_) hstep
    obtain ⟨report, hmem, rfl⟩ := hop data answers heq
    exact (hinv.sent report hmem).means
  · rintro (hanswer | hhost)
    · rcases List.mem_append.mp hanswer with hold | hnew
      · exact (hinv.confirmed (.inl hold)).append _
      · -- the answer is given in this step
        have hmem : .status .verifyOk ∈ r.2 := by
          obtain ⟨e, he, hcode⟩ := List.mem_filterMap.mp hnew
          cases e with
          | status code =>
            obtain rfl := Option.some.inj hcode
            exact he
          | began | accepted | submitted | attempted | pageFailed | released | verified | verifyFailed | activating
          | aborted => cases hcode
        obtain ⟨hmanned, hverified⟩ := verified_of_answer hrun hstep (.inl hmem)
        exact ⟨trace, r.2, rfl, hverified, (sound_of_verified hrun hinv.receiver hmanned hverified).2⟩
    · exact (hinv.confirmed (.inr hhost)).append _
  · rintro (hact | ⟨report, hmem, hparse⟩)
    · rcases (updateStep_activates hstep).1 hact with hbefore | ⟨data, answers, heq, hparse⟩
      · exact hinv.told (.inl hbefore)
      · obtain ⟨report, hmem, rfl⟩ := hop data answers heq
        exact hinv.told (.inr ⟨report, hmem, hparse⟩)
    · exact hinv.told (.inr ⟨report, houtbox report hmem, hparse⟩)

/-- Every step keeps the invariant. -/
theorem receiverStep_invariant (hinv : WorldInvariant cfg u trace w)
    (hrun : (selfUpdateSystem cfg flash).Run trace w.receiver) {op : ReceiverOp}
    (hstep : receiverStep cfg u w op = some (w', es)) : WorldInvariant cfg u (trace ++ es) w' := by
  cases op with
  | host act =>
    obtain ⟨⟨place, reports⟩, hact, heq⟩ := Option.map_eq_some_iff.mp hstep
    obtain ⟨rfl, rfl⟩ := Prod.mk.inj heq
    have hhost := hostStep_of_act hact
    rw [List.append_nil]
    refine ⟨fun report hmem => ?_, hinv.receiver, ?_, ?_⟩
    · exact (List.mem_append.mp hmem).elim (hinv.sent report) (hhost.sent report)
    · rintro (hanswer | hcalm | hgood)
      · exact hinv.confirmed (.inl hanswer)
      · exact absurd hcalm hhost.calm
      · exact hinv.confirmed (.inr (.inl (hhost.good hgood)))
    · rintro (hact' | ⟨report, hmem, hparse⟩)
      · exact absurd (hinv.told (.inl hact')) hhost.before
      · rcases List.mem_append.mp hmem with hold | hnew
        · exact absurd (hinv.told (.inr ⟨report, hold, hparse⟩)) hhost.before
        · exact hhost.last report hnew hparse
  | read =>
    simp only [receiverStep] at hstep
    split at hstep
    · cases hstep
    · rename_i code rest hinbox
      obtain ⟨place, hread, heq⟩ := Option.map_eq_some_iff.mp hstep
      obtain ⟨rfl, rfl⟩ := Prod.mk.inj heq
      obtain ⟨hgood, hnot, hbefore⟩ := read_activating hread
      rw [List.append_nil]
      refine ⟨hinv.sent, hinv.receiver, ?_, fun hact => absurd (hinv.told hact) hbefore⟩
      rintro (hanswer | hactivating | hreturned)
      · exact hinv.confirmed (.inl (hinbox ▸ List.mem_cons_of_mem _ hanswer))
      · exact hinv.confirmed (.inl (hinbox ▸ hgood hactivating ▸ List.mem_cons_self))
      · exact absurd hreturned hnot
  | deliver answers =>
    simp only [receiverStep] at hstep
    split at hstep
    · cases hstep
    · rename_i report rest houtbox
      obtain ⟨r, hr, heq⟩ := Option.map_eq_some_iff.mp hstep
      obtain ⟨rfl, rfl⟩ := Prod.mk.inj heq
      refine hinv.receive hrun (fun report' hmem => houtbox ▸ List.mem_cons_of_mem _ hmem) ?_ hr
      intro data answers' hop
      obtain ⟨rfl, -⟩ := UpdateOp.hid.inj hop
      exact ⟨report, houtbox ▸ List.mem_cons_self, rfl⟩
  | handler ok | writer ok garbage =>
    obtain ⟨r, hr, heq⟩ := Option.map_eq_some_iff.mp hstep
    obtain ⟨rfl, rfl⟩ := Prod.mk.inj heq
    exact hinv.receive hrun (fun _ hmem => hmem) (fun _ _ hop => by cases hop) hr
  | loseReport i =>
    obtain ⟨rfl, rfl⟩ := Prod.mk.inj (Option.some.inj hstep)
    rw [List.append_nil]
    refine ⟨fun report hmem => hinv.sent report (List.mem_of_mem_eraseIdx hmem), hinv.receiver, hinv.confirmed, ?_⟩
    rintro (hact | ⟨report, hmem, hparse⟩)
    · exact hinv.told (.inl hact)
    · exact hinv.told (.inr ⟨report, List.mem_of_mem_eraseIdx hmem, hparse⟩)
  | loseStatus i =>
    obtain ⟨rfl, rfl⟩ := Prod.mk.inj (Option.some.inj hstep)
    rw [List.append_nil]
    refine ⟨hinv.sent, hinv.receiver, fun hgood => hinv.confirmed ?_, hinv.told⟩
    exact hgood.imp_left List.mem_of_mem_eraseIdx

theorem world_invariant (hrun : (receiverUpdateSystem cfg u flash).Run trace w) : WorldInvariant cfg u trace w := by
  induction hrun with
  | start =>
    refine ⟨nofun, ⟨nofun, nofun, fun hmanned => absurd rfl hmanned, (List.take_zero).symm⟩, ?_, ?_⟩
    · rintro (hmem | hhost | hhost)
      · cases hmem
      · cases hhost
      · cases hhost
    · rintro ((hact | hact | hact | hact) | ⟨report, hmem, -⟩)
      · cases hact
      · cases hact
      · cases hact
      · cases hact
      · cases hmem
  | snoc hrun _ hstep ih => exact receiverStep_invariant ih (receiver_run hrun) hstep

/-- An image of one byte. -/
def oneByte : UpdateArgs := ⟨[receiverOtaId], ⟨[7], 0, 0x4C667A2E⟩, []⟩

/-- The host and the receiver with it, up to the activation. -/
def oneByteSteps : List ReceiverOp :=
  let answers : BeginAnswers := ⟨false, true, true, true, fun _ => 0⟩
  List.flatten [[.host .send, .deliver answers], List.replicate 3 (.handler true),
    [.read, .host .send, .deliver answers, .handler true, .handler true, .handler false, .host .timeOut, .host .send,
      .host .send, .deliver answers],
    List.replicate 4 (.handler true), List.replicate 15 (.writer true fun _ => 0),
    [.read, .host .send, .deliver answers, .handler true], List.replicate 3 (.writer true fun _ => 0)]

end World

end SlimeReceiver.SelfUpdate
