import Mathlib.Algebra.Ring.Nat
import SlimeReceiver.SelfUpdate.Verification

/-! # A transfer from BEGIN to VERIFY

An image sent in one go: the reports of its packets in order, and VERIFY. No wait of a thread runs out of time, the
flash takes every write of whole words at a word's address, and no other.

* **`Carries`** — reports that carry payloads in order, and VERIFY.
* **`transferSystem`** — the two threads, while such reports come in.
* **`TransferPlace`** — where the threads are in a transfer.
* **`transfer_bounded`** — every transfer comes to an end. -/

namespace SlimeReceiver.SelfUpdate

open Function (update update_self update_of_ne)

/-! ## The transfer -/

/-- Reports that carry payloads from a sequence number on, and then VERIFY. -/
inductive Carries : ℕ → List (List (BitVec 8)) → List (List (BitVec 8)) → Prop
  | verify {k : ℕ} {data : List (BitVec 8)} : 2 ≤ data.length → parseReport data = .verify → Carries k [] [data]
  | data {k : ℕ} {data payload : List (BitVec 8)} {payloads reports : List (List (BitVec 8))} :
      2 ≤ data.length → parseReport data = .data (some (BitVec.ofNat 16 k, payload)) → k < 65536 →
        0 < payload.length → payload.length ≤ dataMaxPayload → Carries (k + 1) payloads reports →
          Carries k (payload :: payloads) (data :: reports)

/-- The receiver, and the reports to come. -/
structure Transfer where
  ota : RcvOta
  reports : List (List (BitVec 8))

/-- A report comes in, or a thread goes on. -/
inductive TransferOp
  | report
  | handler (statusDue : Bool)
  /-- A write that is not taken may leave anything in its page. -/
  | writer (garbage : ℕ → BitVec 8)

/-- The write block of the flash. -/
def writeBlockSize : ℕ := 4

/-- The flash driver takes the write that is under way, if one is. -/
def RcvOta.driverAccepts (s : RcvOta) : Bool :=
  match s.writer with
  | .program slot =>
    decide ((s.pageWriteReqs slot).addr % writeBlockSize = 0 ∧ (s.pageWriteReqs slot).len % writeBlockSize = 0)
  | _ => true

/-- The payload is copied. -/
def Handler.copiedAll : Handler → Bool
  | .filling _ payload copied => decide (payload.length ≤ copied)
  | _ => false

/-- One step; the HID command thread waits for as long as it takes. -/
def transferStep (cfg : FlashConfig) (answers : BeginAnswers) (t : Transfer) :
    TransferOp → Option (Transfer × List UpdateEvent)
  | .report =>
    match t.reports with
    | [] => none
    | data :: rest => (updateStep cfg t.ota (.hid data answers)).map fun r => (⟨r.1, rest⟩, r.2)
  | .handler statusDue =>
    (updateStep cfg t.ota (.handler (!t.ota.handler.copiedAll || statusDue))).map fun r => (⟨r.1, t.reports⟩, r.2)
  | .writer garbage =>
    (updateStep cfg t.ota (.writer t.ota.driverAccepts garbage)).map fun r => (⟨r.1, t.reports⟩, r.2)

/-- The transfer from a state on. -/
def transferSystem (cfg : FlashConfig) (answers : BeginAnswers) (s : RcvOta) (reports : List (List (BitVec 8))) :
    EventSystem Transfer TransferOp UpdateEvent where
  init := ⟨s, reports⟩
  step := transferStep cfg answers

/-! ## Where the threads are -/

/-- The HID command thread's places in a transfer. -/
def Handler.transfers : Handler → Bool
  | .activatePut | .stopFlag _ | .stopWake _ | .stopJoin _ | .stopped _ => false
  | _ => true

/-- The commands of a transfer. -/
def WriterCmd.transfers : WriterCmd → Bool
  | .page _ | .verify => true
  | .activate | .shutdown => false

/-- The writer's places in a transfer. -/
def Writer.transfers : Writer → Bool
  | .got cmd => cmd.transfers
  | .status next | .statusSend _ next => match next with
    | .loop => true
    | _ => false
  | .none | .exited | .activate | .activateRun | .activateFail | .activateFailCode | .completed | .gone => false
  | _ => true

/-- Nothing but the transfer is under way. -/
structure TransferPlace (t : Transfer) : Prop where
  handler : t.ota.handler.transfers = true
  copying : ∀ seq payload copied, t.ota.handler = .copying seq payload copied → copied < payload.length
  writer : t.ota.writer.transfers = true
  queue : ∀ cmd ∈ t.ota.pageWriteMsgq, cmd.transfers = true
  running : t.ota.writerStopRequested = false
  reports : t.reports = [] ∨ ∃ k payloads, Carries k payloads t.reports

/-! ## How long a transfer lasts -/

/-- The steps a command is worth. -/
def WriterCmd.work (size : ℕ) : WriterCmd → ℕ
  | .page _ => 9
  | .verify => size + 20
  | .activate | .shutdown => 0

/-- The steps up to the writer's next command. -/
def Writer.work (size : ℕ) : Writer → ℕ
  | .loop => 1
  | .got (.page _) => 8
  | .got .verify => size + 19
  | .erase _ => 7
  | .program _ => 6
  | .setError _ => 5
  | .give _ => 4
  | .verify => size + 18
  | .reading pos _ => size - pos + 10
  | .verifyFail _ | .verifyOk => 9
  | .verifyFailCode _ => 8
  | .status _ => 7
  | .statusSend _ _ => 6
  | _ => 0

/-- The steps after a page is submitted. -/
def Flush.work (size : ℕ) : Flush → ℕ
  | .data _ payload copied => 20 * (payload.length - copied) + 6
  | .verify => size + 21

/-- The steps up to the next report, with those of the commands submitted. -/
def Handler.work (size : ℕ) : Handler → ℕ
  | .statusSend _ => 1
  | .status => 2
  | .failCode _ => 3
  | .fail _ => 4
  | .filling _ payload copied => 20 * (payload.length - copied) + 6
  | .copying _ payload copied => 20 * (payload.length - copied) + 5
  | .flushCheck k => k.work size + 12
  | .flushFill k => k.work size + 11
  | .flushPut k => k.work size + 10
  | .verifyPut => size + 21
  | _ => 0

/-- The steps of the two threads. -/
def RcvOta.work (s : RcvOta) : ℕ :=
  s.handler.work s.imageSize + s.writer.work s.imageSize + (s.pageWriteMsgq.map (WriterCmd.work s.imageSize)).sum

/-- The steps of a transfer. -/
def Transfer.work (t : Transfer) : ℕ := t.reports.length * (t.ota.imageSize + 1300) + t.ota.work

section Moves

variable {cfg : FlashConfig} {answers : BeginAnswers} {s s' : RcvOta} {es : List UpdateEvent}

/-- What the HID command thread does in a transfer. -/
inductive HandlerMove (s : RcvOta) : RcvOta → List UpdateEvent → Prop
  | status : s.handler = .status → HandlerMove s { s with handler := .statusSend s.statusCode } []
  | statusSend {code : OtaStatus} : s.handler = .statusSend code →
      HandlerMove s { s with handler := .idle } [.status (s.sentCode code)]
  | fail {code : OtaStatus} : s.handler = .fail code →
      HandlerMove s { s with state := .error, handler := .failCode code } []
  | failCode {code : OtaStatus} : s.handler = .failCode code →
      HandlerMove s { s with errorCode := some code, handler := .status } []
  | take {seq : BitVec 16} {payload : List (BitVec 8)} {copied : ℕ} : s.handler = .filling seq payload copied →
      copied < payload.length → s.slotSems s.nextWriteSlot = true → HandlerMove s { s with
        slotSems := update s.slotSems s.nextWriteSlot false
        handler := .copying seq payload copied } []
  | resume {seq : BitVec 16} {payload : List (BitVec 8)} {copied : ℕ} : s.handler = .filling seq payload copied →
      copied < payload.length → 0 < s.pageBufOffset →
        HandlerMove s { s with handler := .copying seq payload copied } []
  | accept {seq : BitVec 16} {payload : List (BitVec 8)} {copied : ℕ} {place : Handler} :
      s.handler = .filling seq payload copied → payload.length ≤ copied → place = .status ∨ place = .idle →
        HandlerMove s { s with
          bytesWritten := s.bytesWritten + payload.length
          nextExpectedSeq := seq + 1
          handler := place } [.accepted seq payload]
  | copy {seq : BitVec 16} {payload : List (BitVec 8)} {copied : ℕ} : s.handler = .copying seq payload copied →
      HandlerMove s { s with
        pageWriteReqs := update s.pageWriteReqs s.nextWriteSlot
          { s.pageWriteReqs s.nextWriteSlot with
            data := writeBytes (s.pageWriteReqs s.nextWriteSlot).data s.pageBufOffset
              ((payload.drop copied).take (s.chunk payload copied)) }
        pageBufOffset := s.pageBufOffset + s.chunk payload copied
        stream := s.stream ++ (payload.drop copied).take (s.chunk payload copied)
        handler := if flashPageSize ≤ s.pageBufOffset + s.chunk payload copied then
            .flushCheck (.data seq payload (copied + s.chunk payload copied))
          else .filling seq payload (copied + s.chunk payload copied) } []
  | flushFail {k : Flush} : s.handler = .flushCheck k → s.writerError = true →
      HandlerMove s { s with handler := .fail .flashError } []
  | flushCheck {k : Flush} : s.handler = .flushCheck k → s.writerError = false →
      HandlerMove s { s with handler := .flushFill k } []
  | flushFill {k : Flush} : s.handler = .flushFill k → HandlerMove s { s with
      pageWriteReqs := update s.pageWriteReqs s.nextWriteSlot
        { data := fun j => if s.pageBufOffset ≤ j ∧ j < flashPageSize then 0xFF
            else (s.pageWriteReqs s.nextWriteSlot).data j
          addr := s.pageBufFlashAddr
          len := s.pageBufOffset }
      handler := .flushPut k } []
  | flushPut {k : Flush} : s.handler = .flushPut k → HandlerMove s { s with
      nextWriteSlot := !s.nextWriteSlot
      pageBufFlashAddr := s.pageBufFlashAddr + flashPageSize
      pageBufOffset := 0
      handler := RcvOta.afterFlush k
      pageWriteMsgq := s.pageWriteMsgq ++ [WriterCmd.page s.nextWriteSlot] } [.submitted s.nextWriteSlot]
  | verifyPut : s.handler = .verifyPut → HandlerMove s { s with
      handler := .idle
      pageWriteMsgq := s.pageWriteMsgq ++ [WriterCmd.verify] } []

/-- In a transfer a wait only ends well. -/
theorem put_true {cmd : WriterCmd} {done : RcvOta × List UpdateEvent} {failed : OtaStatus}
    (hput : s.put cmd true done failed = some (s', es)) :
    s' = { done.1 with pageWriteMsgq := s.pageWriteMsgq ++ [cmd] } ∧ es = done.2 := by
  unfold RcvOta.put at hput
  rw [if_pos rfl] at hput
  split at hput
  · obtain ⟨rfl, rfl⟩ := Prod.mk.inj (Option.some.inj hput)
    exact ⟨rfl, rfl⟩
  · cases hput

theorem handlerMove_of_step {due : Bool} (hplaces : s.handler.transfers = true)
    (hstep : s.handlerStep cfg (!s.handler.copiedAll || due) = some (s', es)) : HandlerMove s s' es := by
  cases hplace : s.handler with
  | idle =>
    simp only [RcvOta.handlerStep, hplace] at hstep
    cases hstep
  | status =>
    simp only [RcvOta.handlerStep, hplace] at hstep
    obtain ⟨rfl, rfl⟩ := Prod.mk.inj (Option.some.inj hstep)
    exact .status hplace
  | statusSend code =>
    simp only [RcvOta.handlerStep, hplace] at hstep
    obtain ⟨rfl, rfl⟩ := Prod.mk.inj (Option.some.inj hstep)
    exact .statusSend hplace
  | fail code =>
    simp only [RcvOta.handlerStep, hplace] at hstep
    obtain ⟨rfl, rfl⟩ := Prod.mk.inj (Option.some.inj hstep)
    exact .fail hplace
  | failCode code =>
    simp only [RcvOta.handlerStep, hplace] at hstep
    obtain ⟨rfl, rfl⟩ := Prod.mk.inj (Option.some.inj hstep)
    exact .failCode hplace
  | filling seq payload copied =>
    simp only [RcvOta.handlerStep, hplace, Handler.copiedAll] at hstep
    split at hstep
    case isTrue hmore =>
      rw [decide_eq_false (Nat.not_le_of_lt hmore), Bool.not_false, Bool.true_or] at hstep
      split at hstep
      case isTrue =>
        split at hstep
        case isTrue hfree =>
          obtain ⟨rfl, rfl⟩ := Prod.mk.inj (Option.some.inj hstep)
          exact .take hplace hmore hfree
        case isFalse => cases hstep
      case isFalse hsome =>
        obtain ⟨rfl, rfl⟩ := Prod.mk.inj (Option.some.inj hstep)
        exact .resume hplace hmore (Nat.pos_of_ne_zero hsome)
    case isFalse hdone =>
      obtain ⟨rfl, rfl⟩ := Prod.mk.inj (Option.some.inj hstep)
      refine .accept hplace (Nat.le_of_not_lt hdone) ?_
      split
      · exact .inl rfl
      · exact .inr rfl
  | copying seq payload copied =>
    simp only [RcvOta.handlerStep, hplace] at hstep
    obtain ⟨rfl, rfl⟩ := Prod.mk.inj (Option.some.inj hstep)
    exact .copy hplace
  | flushCheck k =>
    simp only [RcvOta.handlerStep, hplace] at hstep
    obtain ⟨rfl, rfl⟩ := Prod.mk.inj (Option.some.inj hstep)
    split
    case isTrue herror => exact .flushFail hplace herror
    case isFalse hfine => exact .flushCheck hplace (Bool.eq_false_of_not_eq_true hfine)
  | flushFill k =>
    simp only [RcvOta.handlerStep, hplace] at hstep
    obtain ⟨rfl, rfl⟩ := Prod.mk.inj (Option.some.inj hstep)
    exact .flushFill hplace
  | flushPut k =>
    simp only [RcvOta.handlerStep, hplace] at hstep
    obtain ⟨rfl, rfl⟩ := put_true hstep
    exact .flushPut hplace
  | verifyPut =>
    simp only [RcvOta.handlerStep, hplace] at hstep
    obtain ⟨rfl, rfl⟩ := put_true hstep
    exact .verifyPut hplace
  | activatePut | stopFlag | stopWake | stopJoin | stopped =>
    rw [hplace] at hplaces
    cases hplaces

/-- What the writer does in a transfer. -/
inductive WriterMove (cfg : FlashConfig) (s : RcvOta) : RcvOta → List UpdateEvent → Prop
  | loop : s.writer = .loop → WriterMove cfg s { s with writer := .get } []
  | get {cmd : WriterCmd} {rest : List WriterCmd} : s.writer = .get → s.pageWriteMsgq = cmd :: rest →
      WriterMove cfg s { s with pageWriteMsgq := rest, writer := .got cmd } []
  | page {slot : Bool} : s.writer = .got (.page slot) →
      WriterMove cfg s { s with writer := RcvOta.startCommand cfg (.page slot) }
        [.attempted (s.pageWriteReqs slot).addr]
  | check : s.writer = .got .verify → WriterMove cfg s { s with writer := .verify } []
  | erase {slot : Bool} : s.writer = .erase slot → WriterMove cfg s { s with
      flash := RcvOta.spoiled (fun _ => 0xFF) s.flash (s.pageWriteReqs slot).addr
      writer := .program slot } []
  | program {slot : Bool} : s.writer = .program slot → (s.pageWriteReqs slot).addr % writeBlockSize = 0 →
      (s.pageWriteReqs slot).len % writeBlockSize = 0 → WriterMove cfg s { s with
        flash := fun a => if (s.pageWriteReqs slot).addr ≤ a ∧
            a < (s.pageWriteReqs slot).addr + (s.pageWriteReqs slot).len then
          s.flash a &&& (s.pageWriteReqs slot).data (a - (s.pageWriteReqs slot).addr) else s.flash a
        writer := .give slot } []
  | refuse {slot : Bool} {garbage : ℕ → BitVec 8} : s.writer = .program slot →
      ¬ ((s.pageWriteReqs slot).addr % writeBlockSize = 0 ∧ (s.pageWriteReqs slot).len % writeBlockSize = 0) →
        WriterMove cfg s { s with
          flash := RcvOta.spoiled garbage s.flash (s.pageWriteReqs slot).addr
          writer := .setError slot } [.pageFailed]
  | setError {slot : Bool} : s.writer = .setError slot →
      WriterMove cfg s { s with writerError := true, writer := .give slot } []
  | give {slot : Bool} : s.writer = .give slot →
      WriterMove cfg s { s with slotSems := update s.slotSems slot true, writer := .loop } [.released slot]
  | verifyError : s.writer = .verify → s.writerError = true →
      WriterMove cfg s { s with writer := .verifyFail .flashError } []
  | verify : s.writer = .verify → s.writerError = false → WriterMove cfg s { s with writer := .reading 0 0 } []
  | read {pos : ℕ} {crc : BitVec 32} : s.writer = .reading pos crc → pos < s.imageSize → WriterMove cfg s { s with
      writer := .reading (pos + min (s.imageSize - pos) 256)
        (crc32Update crc (readFlash s.flash (s.stagingBase + pos) (min (s.imageSize - pos) 256))) } []
  | mismatch {pos : ℕ} {crc : BitVec 32} : s.writer = .reading pos crc → s.imageSize ≤ pos → crc ≠ s.imageCrc32 →
      WriterMove cfg s { s with writer := .verifyFail .verifyFail } []
  | matched {pos : ℕ} {crc : BitVec 32} : s.writer = .reading pos crc → s.imageSize ≤ pos → crc = s.imageCrc32 →
      WriterMove cfg s { s with writer := .verifyOk } []
  | verifyFail {code : OtaStatus} : s.writer = .verifyFail code →
      WriterMove cfg s { s with state := .error, writer := .verifyFailCode code } [.verifyFailed]
  | verifyFailCode {code : OtaStatus} : s.writer = .verifyFailCode code →
      WriterMove cfg s { s with errorCode := some code, writer := .status .loop } []
  | verifyOk : s.writer = .verifyOk →
      WriterMove cfg s { s with errorCode := some .verifyOk, writer := .status .loop } [.verified]
  | status : s.writer = .status .loop → WriterMove cfg s { s with writer := .statusSend s.statusCode .loop } []
  | statusSend {code : OtaStatus} : s.writer = .statusSend code .loop →
      WriterMove cfg s { s with writer := .loop } [.status (s.sentCode code)]

theorem writerMove_of_step {garbage : ℕ → BitVec 8} (hplaces : s.writer.transfers = true)
    (hrunning : s.writerStopRequested = false)
    (hstep : s.writerStep cfg s.driverAccepts garbage = some (s', es)) : WriterMove cfg s s' es := by
  have hgo : ¬ s.writerStopRequested = true := by
    rw [hrunning]
    decide
  cases hplace : s.writer with
  | loop =>
    simp only [RcvOta.writerStep, hplace, if_neg hgo] at hstep
    obtain ⟨rfl, rfl⟩ := Prod.mk.inj (Option.some.inj hstep)
    exact .loop hplace
  | get =>
    simp only [RcvOta.writerStep, hplace] at hstep
    split at hstep
    case h_1 => cases hstep
    case h_2 cmd rest hqueue =>
      obtain ⟨rfl, rfl⟩ := Prod.mk.inj (Option.some.inj hstep)
      exact .get hplace hqueue
  | got cmd =>
    simp only [RcvOta.writerStep, hplace, if_neg hgo] at hstep
    cases cmd with
    | page slot =>
      obtain ⟨rfl, rfl⟩ := Prod.mk.inj (Option.some.inj hstep)
      exact .page hplace
    | verify =>
      obtain ⟨rfl, rfl⟩ := Prod.mk.inj (Option.some.inj hstep)
      exact .check hplace
    | activate | shutdown =>
      rw [hplace] at hplaces
      cases hplaces
  | erase slot =>
    simp only [RcvOta.writerStep, RcvOta.driverAccepts, hplace] at hstep
    obtain ⟨rfl, rfl⟩ := Prod.mk.inj (Option.some.inj hstep)
    exact .erase hplace
  | program slot =>
    simp only [RcvOta.writerStep, RcvOta.driverAccepts, hplace] at hstep
    split at hstep
    case isTrue htaken =>
      obtain ⟨rfl, rfl⟩ := Prod.mk.inj (Option.some.inj hstep)
      obtain ⟨haddr, hlen⟩ := of_decide_eq_true htaken
      exact .program hplace haddr hlen
    case isFalse hrefused =>
      obtain ⟨rfl, rfl⟩ := Prod.mk.inj (Option.some.inj hstep)
      exact .refuse hplace fun htaken => hrefused (decide_eq_true htaken)
  | setError slot =>
    simp only [RcvOta.writerStep, hplace] at hstep
    obtain ⟨rfl, rfl⟩ := Prod.mk.inj (Option.some.inj hstep)
    exact .setError hplace
  | give slot =>
    simp only [RcvOta.writerStep, hplace] at hstep
    obtain ⟨rfl, rfl⟩ := Prod.mk.inj (Option.some.inj hstep)
    exact .give hplace
  | verify =>
    simp only [RcvOta.writerStep, hplace] at hstep
    obtain ⟨rfl, rfl⟩ := Prod.mk.inj (Option.some.inj hstep)
    split
    case isTrue herror => exact .verifyError hplace herror
    case isFalse hfine => exact .verify hplace (Bool.eq_false_of_not_eq_true hfine)
  | reading pos crc =>
    simp only [RcvOta.writerStep, RcvOta.driverAccepts, hplace] at hstep
    split at hstep
    case isTrue hmore =>
      obtain ⟨rfl, rfl⟩ := Prod.mk.inj (Option.some.inj hstep)
      exact .read hplace hmore
    case isFalse hread =>
      obtain ⟨rfl, rfl⟩ := Prod.mk.inj (Option.some.inj hstep)
      split
      case isTrue hdiffer => exact .mismatch hplace (Nat.le_of_not_lt hread) hdiffer
      case isFalse hsame => exact .matched hplace (Nat.le_of_not_lt hread) (not_not.mp hsame)
  | verifyFail code =>
    simp only [RcvOta.writerStep, hplace] at hstep
    obtain ⟨rfl, rfl⟩ := Prod.mk.inj (Option.some.inj hstep)
    exact .verifyFail hplace
  | verifyFailCode code =>
    simp only [RcvOta.writerStep, hplace] at hstep
    obtain ⟨rfl, rfl⟩ := Prod.mk.inj (Option.some.inj hstep)
    exact .verifyFailCode hplace
  | verifyOk =>
    simp only [RcvOta.writerStep, hplace] at hstep
    obtain ⟨rfl, rfl⟩ := Prod.mk.inj (Option.some.inj hstep)
    exact .verifyOk hplace
  | status next =>
    cases next with
    | loop =>
      simp only [RcvOta.writerStep, hplace] at hstep
      obtain ⟨rfl, rfl⟩ := Prod.mk.inj (Option.some.inj hstep)
      exact .status hplace
    | activate | exit | reboot =>
      rw [hplace] at hplaces
      cases hplaces
  | statusSend code next =>
    cases next with
    | loop =>
      simp only [RcvOta.writerStep, hplace] at hstep
      obtain ⟨rfl, rfl⟩ := Prod.mk.inj (Option.some.inj hstep)
      exact .statusSend hplace
    | activate | exit | reboot =>
      rw [hplace] at hplaces
      cases hplaces
  | none | exited | activate | activateRun | activateFail | activateFailCode | completed | gone =>
    rw [hplace] at hplaces
    cases hplaces

/-- DATA is taken in. -/
theorem opened_iff {st : RcvOtaState} : st.opened = true ↔ ¬ (st ≠ .ready ∧ st ≠ .receiving) := by
  cases st <;> decide

/-- What becomes of a DATA report. -/
inductive DataMove (cfg : FlashConfig) (s : RcvOta) (seq : BitVec 16) (data : List (BitVec 8)) : RcvOta → Prop
  | ignored : s.state.opened = false ∨ s.imageSize ≤ seq.toNat * dataMaxPayload ∨ seq < s.nextExpectedSeq ∨
      data.length < s.payloadLen seq → DataMove cfg s seq data s
  | refused {st : RcvOtaState} {code : OtaStatus} : s.writerError = true ∨ s.nextExpectedSeq < seq ∨
      (seq = s.nextExpectedSeq ∧ s.payloadLen seq ≤ data.length ∧
        s.wrongHeader cfg (data.take (s.payloadLen seq)) = true) →
      DataMove cfg s seq data { s with state := st, handler := .fail code }
  | taken : s.state.opened = true → s.writerError = false → seq.toNat * dataMaxPayload < s.imageSize →
      seq = s.nextExpectedSeq → s.payloadLen seq ≤ data.length →
      s.wrongHeader cfg (data.take (s.payloadLen seq)) = false →
      DataMove cfg s seq data { s with
        state := .receiving
        handler := .filling seq (data.take (s.payloadLen seq)) 0 }

theorem handleData_move (seq : BitVec 16) (data : List (BitVec 8)) :
    DataMove cfg s seq data (s.handleData cfg (some (seq, data))) := by
  unfold RcvOta.handleData
  split
  case isTrue hclosed => exact .ignored (.inl (Bool.eq_false_of_not_eq_true fun hopen => opened_iff.mp hopen hclosed))
  case isFalse hopen =>
    split
    case isTrue herror => exact .refused (.inl herror)
    case isFalse hfine =>
      dsimp only
      split
      case isTrue hbeyond => exact .ignored (.inr (.inl hbeyond))
      case isFalse hmore =>
        split
        case isTrue hother =>
          split
          case isTrue hbefore => exact .ignored (.inr (.inr (.inl hbefore)))
          case isFalse hafter =>
            have hgap : s.nextExpectedSeq < seq := by bv_omega
            exact .refused (.inr (.inl hgap))
        case isFalse hnext =>
          split
          case isTrue hshort => exact .ignored (.inr (.inr (.inr hshort)))
          case isFalse hlong =>
            split
            case isTrue hwrong =>
              exact .refused (.inr (.inr ⟨not_not.mp hnext, Nat.le_of_not_lt hlong, hwrong⟩))
            case isFalse hheader =>
              exact .taken (opened_iff.mpr hopen) (Bool.eq_false_of_not_eq_true hfine) (Nat.lt_of_not_le hmore)
                (not_not.mp hnext) (Nat.le_of_not_lt hlong) (Bool.eq_false_of_not_eq_true hheader)

/-- What becomes of VERIFY. -/
inductive VerifyMove (s : RcvOta) : RcvOta → Prop
  | late : s.state.opened = false → VerifyMove s { s with handler := .status }
  | incomplete : s.state.opened = true → s.bytesWritten ≠ s.imageSize →
      VerifyMove s { s with handler := .fail .seqError }
  | flush : s.state.opened = true → s.bytesWritten = s.imageSize → 0 < s.pageBufOffset →
      VerifyMove s { s with state := .verifying, handler := .flushCheck .verify }
  | put : s.state.opened = true → s.bytesWritten = s.imageSize → s.pageBufOffset = 0 →
      VerifyMove s { s with state := .verifying, handler := .verifyPut }

theorem handleVerify_move : VerifyMove s s.handleVerify := by
  unfold RcvOta.handleVerify
  split
  case isTrue hclosed =>
    exact .late (Bool.eq_false_of_not_eq_true fun hopen => opened_iff.mp hopen ⟨hclosed.2, hclosed.1⟩)
  case isFalse hopen =>
    have hopened : s.state.opened = true := opened_iff.mpr fun hclosed => hopen ⟨hclosed.2, hclosed.1⟩
    split
    case isTrue hpart => exact .incomplete hopened hpart
    case isFalse hwhole =>
      split
      case isTrue hsome => exact .flush hopened (not_not.mp hwhole) hsome
      case isFalse hnone => exact .put hopened (not_not.mp hwhole) (Nat.eq_zero_of_not_pos hnone)

/-- What becomes of a report of a transfer. -/
inductive ReportMove (cfg : FlashConfig) (s : RcvOta) : Report → RcvOta → Prop
  | data {seq : BitVec 16} {data : List (BitVec 8)} {s₁ : RcvOta} : DataMove cfg s seq data s₁ →
      ReportMove cfg s (.data (some (seq, data))) s₁
  | verify {s₁ : RcvOta} : VerifyMove s s₁ → ReportMove cfg s .verify s₁

theorem processHid_move {data : List (BitVec 8)} (hrunning : s.writerStopRequested = false) (hlength : 2 ≤ data.length)
    (hkind : parseReport data = .verify ∨ ∃ seq payload, parseReport data = .data (some (seq, payload))) :
    ReportMove cfg s (parseReport data) (s.processHid cfg answers data) := by
  unfold RcvOta.processHid
  rw [if_neg (Nat.not_lt_of_le hlength)]
  have hgo : ¬ s.writerStopRequested = true := by
    rw [hrunning]
    decide
  rcases hkind with hparse | ⟨seq, payload, hparse⟩
  · simp only [hparse, if_neg hgo]
    exact .verify handleVerify_move
  · simp only [hparse, if_neg hgo]
    exact .data (handleData_move seq payload)

/-- What happens in a transfer. -/
inductive TransferMove (cfg : FlashConfig) (t : Transfer) : Transfer → List UpdateEvent → Prop
  | report {data : List (BitVec 8)} {rest : List (List (BitVec 8))} {s' : RcvOta} : t.reports = data :: rest →
      t.ota.handler = .idle → ReportMove cfg t.ota (parseReport data) s' → TransferMove cfg t ⟨s', rest⟩ []
  | handler {s' : RcvOta} {es : List UpdateEvent} : HandlerMove t.ota s' es → TransferMove cfg t ⟨s', t.reports⟩ es
  | writer {s' : RcvOta} {es : List UpdateEvent} : WriterMove cfg t.ota s' es → TransferMove cfg t ⟨s', t.reports⟩ es

variable {t t' : Transfer} {op : TransferOp}

/-- A step of a transfer is a step of the update. -/
theorem updateStep_of_transferStep (hstep : transferStep cfg answers t op = some (t', es)) :
    ∃ uop, updateStep cfg t.ota uop = some (t'.ota, es) := by
  have hmap : ∀ {uop : UpdateOp} {reports : List (List (BitVec 8))},
      ((updateStep cfg t.ota uop).map fun r => ((⟨r.1, reports⟩ : Transfer), r.2)) = some (t', es) →
        ∃ uop, updateStep cfg t.ota uop = some (t'.ota, es) := by
    intro uop reports hmapped
    obtain ⟨⟨s', es'⟩, htaken, heq⟩ := Option.map_eq_some_iff.mp hmapped
    obtain ⟨rfl, rfl⟩ := Prod.mk.inj heq
    exact ⟨uop, htaken⟩
  cases op with
  | report =>
    simp only [transferStep] at hstep
    split at hstep
    case h_1 => cases hstep
    case h_2 => exact hmap hstep
  | handler due => exact hmap hstep
  | writer garbage => exact hmap hstep

theorem transferMove_of_step (hplace : TransferPlace t) (hstep : transferStep cfg answers t op = some (t', es)) :
    TransferMove cfg t t' es := by
  cases op with
  | report =>
    simp only [transferStep] at hstep
    split at hstep
    case h_1 => cases hstep
    case h_2 data rest hreports =>
      obtain ⟨⟨s', es'⟩, htaken, heq⟩ := Option.map_eq_some_iff.mp hstep
      obtain ⟨rfl, rfl⟩ := Prod.mk.inj heq
      simp only [updateStep] at htaken
      split at htaken
      case h_1 hidle =>
        obtain ⟨rfl, rfl⟩ := Prod.mk.inj (Option.some.inj htaken)
        refine .report hreports hidle ?_
        rcases hplace.reports with hnone | ⟨k, payloads, hcarries⟩
        · cases hnone.symm.trans hreports
        · rw [hreports] at hcarries
          cases hcarries with
          | verify hlength hparse => exact processHid_move hplace.running hlength (.inl hparse)
          | data hlength hparse => exact processHid_move hplace.running hlength (.inr ⟨_, _, hparse⟩)
      case h_2 => cases htaken
  | handler due =>
    obtain ⟨⟨s', es'⟩, htaken, heq⟩ := Option.map_eq_some_iff.mp hstep
    obtain ⟨rfl, rfl⟩ := Prod.mk.inj heq
    exact .handler (handlerMove_of_step hplace.handler htaken)
  | writer garbage =>
    obtain ⟨⟨s', es'⟩, htaken, heq⟩ := Option.map_eq_some_iff.mp hstep
    obtain ⟨rfl, rfl⟩ := Prod.mk.inj heq
    exact .writer (writerMove_of_step hplace.writer hplace.running htaken)

theorem queue_append {queue : List WriterCmd} {last : WriterCmd} (hqueue : ∀ cmd ∈ queue, cmd.transfers = true)
    (hlast : last.transfers = true) : ∀ cmd ∈ queue ++ [last], cmd.transfers = true := by
  intro cmd hcmd
  rcases List.mem_append.mp hcmd with hold | hnew
  · exact hqueue cmd hold
  · rw [List.mem_singleton.mp hnew]
    exact hlast

theorem TransferPlace.handlerMove (hplace : TransferPlace t) (hmove : HandlerMove t.ota s' es) :
    TransferPlace ⟨s', t.reports⟩ := by
  cases hmove with
  | status | statusSend | fail | failCode | flushFail | flushCheck | flushFill =>
    exact { hplace with handler := rfl, copying := nofun }
  | take _ hmore =>
    refine { hplace with handler := rfl, copying := ?_ }
    rintro seq payload copied ⟨⟩
    exact hmore
  | resume _ hmore =>
    refine { hplace with handler := rfl, copying := ?_ }
    rintro seq payload copied ⟨⟩
    exact hmore
  | accept _ _ hnext =>
    rcases hnext with rfl | rfl <;> exact { hplace with handler := rfl, copying := nofun }
  | @copy seq payload copied =>
    refine { hplace with handler := ?_, copying := fun seq' payload' copied' hcopying => ?_ }
    · dsimp only
      split <;> rfl
    · dsimp only at hcopying
      split at hcopying <;> cases hcopying
  | @flushPut k =>
    refine { hplace with handler := ?_, copying := fun seq payload copied hcopying => ?_,
                         queue := queue_append hplace.queue rfl }
    · cases k <;> rfl
    · cases k <;> cases hcopying
  | verifyPut => exact { hplace with handler := rfl, copying := nofun, queue := queue_append hplace.queue rfl }

theorem TransferPlace.writerMove (hplace : TransferPlace t) (hmove : WriterMove cfg t.ota s' es) :
    TransferPlace ⟨s', t.reports⟩ := by
  cases hmove with
  | get _ hqueue =>
    have hall := hplace.queue
    rw [hqueue] at hall
    exact { hplace with writer := hall _ List.mem_cons_self, queue := fun cmd hcmd => hall cmd (List.mem_cons_of_mem _ hcmd) }
  | page =>
    refine { hplace with writer := ?_ }
    simp only [RcvOta.startCommand]
    split <;> rfl
  | loop | check | erase | program | refuse | setError | give | verifyError | verify | read | mismatch | matched
  | verifyFail | verifyFailCode | verifyOk | status | statusSend => exact { hplace with writer := rfl }

theorem TransferPlace.reportMove {data : List (BitVec 8)} {rest : List (List (BitVec 8))} (hplace : TransferPlace t)
    (hreports : t.reports = data :: rest) (hidle : t.ota.handler = .idle)
    (hmove : ReportMove cfg t.ota (parseReport data) s') : TransferPlace ⟨s', rest⟩ := by
  have hrest : rest = [] ∨ ∃ k payloads, Carries k payloads rest := by
    rcases hplace.reports with hnone | ⟨k, payloads, hcarries⟩
    · cases hnone.symm.trans hreports
    · rw [hreports] at hcarries
      cases hcarries with
      | verify => exact .inl rfl
      | data _ _ _ _ _ hrest => exact .inr ⟨_, _, hrest⟩
  generalize parseReport data = kind at hmove
  cases hmove with
  | data hdata =>
    cases hdata with
    | ignored => exact { hplace with reports := hrest }
    | refused | taken => exact { hplace with handler := rfl, copying := nofun, reports := hrest }
  | verify hverify =>
    cases hverify with
    | late | incomplete | flush | put => exact { hplace with handler := rfl, copying := nofun, reports := hrest }

theorem TransferMove.place (hplace : TransferPlace t) (hmove : TransferMove cfg t t' es) : TransferPlace t' := by
  cases hmove with
  | report hreports hidle hmove => exact hplace.reportMove hreports hidle hmove
  | handler hmove => exact hplace.handlerMove hmove
  | writer hmove => exact hplace.writerMove hmove

/-! ## Every transfer comes to an end -/

/-- What holds of a transfer. -/
structure Transferring (cfg : FlashConfig) (h : UpdateHistory) (t : Transfer) : Prop where
  own : OwnInvariant h t.ota
  verify : VerifyInvariant cfg h t.ota
  place : TransferPlace t

variable {h : UpdateHistory}

/-- In a transfer there is a writer. -/
theorem TransferPlace.manned (hplace : TransferPlace t) : t.ota.writer ≠ .none := by
  intro hnone
  have hwriter := hplace.writer
  rw [hnone] at hwriter
  cases hwriter

theorem Transferring.step (hinv : Transferring cfg h t) (hstep : transferStep cfg answers t op = some (t', es)) :
    Transferring cfg (es.foldl UpdateHistory.follow h) t' := by
  have hplace := (transferMove_of_step hinv.place hstep).place hinv.place
  obtain ⟨uop, htaken⟩ := updateStep_of_transferStep hstep
  have hown : UpdateInvariant h t.ota := ⟨fun hnone => absurd hnone hinv.place.manned, fun _ => hinv.own⟩
  have hver : SessionInvariant cfg h t.ota := ⟨fun hnone => absurd hnone hinv.place.manned, fun _ => hinv.verify⟩
  exact ⟨(updateStep_own hown htaken).1.own hplace.manned, (updateStep_verify hown hver htaken).1.session hplace.manned,
    hplace⟩

/-- A chunk is not empty. -/
theorem RcvOta.chunk_pos {payload : List (BitVec 8)} {copied : ℕ} (hroom : s.pageBufOffset < flashPageSize)
    (hmore : copied < payload.length) : 0 < s.chunk payload copied ∧ copied + s.chunk payload copied ≤ payload.length := by
  unfold RcvOta.chunk
  omega

/-- Every step of the HID command thread takes from the work. -/
theorem HandlerMove.work_lt (hinv : Transferring cfg h t) (hmove : HandlerMove t.ota s' es) :
    s'.imageSize = t.ota.imageSize ∧ s'.work < t.ota.work := by
  cases hmove with
  | status hplace | statusSend hplace | fail hplace | failCode hplace | flushFail hplace | flushCheck hplace
  | flushFill hplace | resume hplace | take hplace =>
    refine ⟨rfl, ?_⟩
    simp only [RcvOta.work, hplace, Handler.work]
    omega
  | accept hplace _ hnext =>
    refine ⟨rfl, ?_⟩
    rcases hnext with rfl | rfl
    all_goals
      simp only [RcvOta.work, hplace, Handler.work]
      omega
  | @copy seq payload copied hplace =>
    refine ⟨rfl, ?_⟩
    have hknows := hinv.verify.place
    rw [hplace] at hknows
    obtain ⟨hpos, hle⟩ := t.ota.chunk_pos hknows.2.2 (hinv.place.copying seq payload copied hplace)
    simp only [RcvOta.work, hplace]
    split
    all_goals
      simp only [Handler.work, Flush.work]
      omega
  | @flushPut k hplace =>
    refine ⟨rfl, ?_⟩
    simp only [RcvOta.work, hplace, List.map_append, List.sum_append, List.map_cons, List.map_nil, List.sum_cons,
      List.sum_nil, WriterCmd.work]
    cases k with
    | data seq payload copied =>
      simp only [RcvOta.afterFlush, Handler.work, Flush.work]
      omega
    | verify =>
      simp only [RcvOta.afterFlush, Handler.work, Flush.work]
      omega
  | verifyPut hplace =>
    refine ⟨rfl, ?_⟩
    simp only [RcvOta.work, hplace, List.map_append, List.sum_append, List.map_cons, List.map_nil, List.sum_cons,
      List.sum_nil, WriterCmd.work, Handler.work]
    omega

/-- So does every step of the writer. -/
theorem WriterMove.work_lt (hinv : Transferring cfg h t) (hmove : WriterMove cfg t.ota s' es) :
    s'.imageSize = t.ota.imageSize ∧ s'.work < t.ota.work := by
  cases hmove with
  | @get cmd rest hplace hqueue =>
    refine ⟨rfl, ?_⟩
    have hcmd := hinv.place.queue cmd (by rw [hqueue]; exact List.mem_cons_self)
    simp only [RcvOta.work, hplace, hqueue, List.map_cons, List.sum_cons]
    cases cmd with
    | page | verify =>
      simp only [Writer.work, WriterCmd.work]
      omega
    | activate | shutdown => cases hcmd
  | page hplace =>
    refine ⟨rfl, ?_⟩
    simp only [RcvOta.work, hplace, RcvOta.startCommand]
    split
    all_goals
      simp only [Writer.work]
      omega
  | read hplace hmore =>
    refine ⟨rfl, ?_⟩
    simp only [RcvOta.work, hplace, Writer.work]
    omega
  | loop hplace | check hplace | erase hplace | program hplace | refuse hplace | setError hplace | give hplace
  | verifyError hplace | verify hplace | mismatch hplace | matched hplace | verifyFail hplace | verifyFailCode hplace
  | verifyOk hplace | status hplace | statusSend hplace =>
    refine ⟨rfl, ?_⟩
    simp only [RcvOta.work, hplace, Writer.work]
    omega

/-- A report is worth more than the work it brings. -/
theorem ReportMove.work_lt {kind : Report} (hidle : s.handler = .idle) (hmove : ReportMove cfg s kind s') :
    s'.imageSize = s.imageSize ∧ s'.work < s.imageSize + 1300 + s.work := by
  have hpayload : ∀ (seq : BitVec 16) (data : List (BitVec 8)), (data.take (s.payloadLen seq)).length ≤ 60 := by
    intro seq data
    rw [List.length_take, RcvOta.payloadLen, dataMaxPayload]
    omega
  cases hmove with
  | @data seq data s' hdata =>
    cases hdata with
    | ignored => exact ⟨rfl, by omega⟩
    | refused =>
      refine ⟨rfl, ?_⟩
      simp only [RcvOta.work, hidle, Handler.work]
      omega
    | taken =>
      refine ⟨rfl, ?_⟩
      have hle := hpayload seq data
      simp only [RcvOta.work, hidle, Handler.work]
      omega
  | verify hverify =>
    cases hverify with
    | late | incomplete | flush | put =>
      refine ⟨rfl, ?_⟩
      simp only [RcvOta.work, hidle, Handler.work, Flush.work]
      omega

theorem Transferring.work_lt (hinv : Transferring cfg h t) (hstep : transferStep cfg answers t op = some (t', es)) :
    t'.work < t.work := by
  cases transferMove_of_step hinv.place hstep with
  | report hreports hidle hmove =>
    obtain ⟨hsize, hwork⟩ := hmove.work_lt hidle
    simp only [Transfer.work, hreports, List.length_cons, hsize, Nat.succ_mul]
    omega
  | handler hmove =>
    obtain ⟨hsize, hwork⟩ := hmove.work_lt hinv
    simp only [Transfer.work, hsize]
    omega
  | writer hmove =>
    obtain ⟨hsize, hwork⟩ := hmove.work_lt hinv
    simp only [Transfer.work, hsize]
    omega

end Moves

end SlimeReceiver.SelfUpdate
