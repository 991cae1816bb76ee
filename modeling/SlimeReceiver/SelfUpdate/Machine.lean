import SlimeReceiver.Library.Bytes
import SlimeReceiver.Library.EventSystem

/-! # The receiver's own update

`receiver_ota.c`: the HID command thread takes an image in and the writer thread puts it into the staging
region, page by page, verifies it and activates it. The two share two page buffers with a semaphore each, a queue of
four commands, the session's status and two flags. Either thread takes one step for every access to what
they share; what the command thread does while no writer exists is one step.

* **`FlashConfig`**, **`beginCheck`** — what an image must be to be taken in.
* **`RcvOta`** — the static variables, and where the threads are.
* **`handlerStep`**, **`writerStep`**, **`selfUpdateSystem`** — the steps of the two threads. -/

namespace SlimeReceiver.SelfUpdate

open Function (update)

/-- `RCV_OTA_FLASH_PAGE_SIZE`. -/
def flashPageSize : ℕ := 4096
/-- `OTA_DATA_MAX_PAYLOAD`. -/
def dataMaxPayload : ℕ := 60
/-- The places in `page_write_msgq`. -/
def writerQueueSize : ℕ := 4

/-! ## Reports -/

/-- The `OTA_STATUS_` codes. -/
inductive OtaStatus
  | idle
  | ready
  | receiving
  | verifyOk
  | verifyFail
  | activating
  | complete
  | error
  | boardMismatch
  | flashError
  | sizeError
  | seqError
  | timeout
deriving DecidableEq

/-- The parameters of a BEGIN report. -/
structure BeginRequest where
  imageSize : ℕ
  imageCrc32 : BitVec 32
  protocolVer : BitVec 8
  boardTarget : List (BitVec 8)
  flashBase : ℕ

/-- A report, with what the handlers read of it; too short a BEGIN or DATA has nothing. -/
inductive Report
  | queryInfo
  | start (request : Option BeginRequest)
  | data (body : Option (BitVec 16 × List (BitVec 8)))
  | verify
  | activate
  | abort
  | unknown

/-- What the handlers read of a report of two bytes or more. -/
def parseReport (data : List (BitVec 8)) : Report :=
  let byte := fun k => data.getD k 0
  if byte 0 = 0xF0 then .queryInfo
  else if byte 0 = 0xF2 then .start (if data.length < 64 then none else some
    { imageSize := (le32 (byte 2) (byte 3) (byte 4) (byte 5)).toNat
      imageCrc32 := le32 (byte 6) (byte 7) (byte 8) (byte 9)
      protocolVer := byte 12
      boardTarget := (data.drop 13).take 47
      flashBase := (be16 (byte 61) (byte 62)).toNat * 4096 })
  else if byte 0 = 0xF3 then .data (if data.length < 4 then none else some (be16 (byte 2) (byte 3), data.drop 4))
  else if byte 0 = 0xF5 then .verify
  else if byte 0 = 0xF6 then .activate
  else if byte 0 = 0xF7 then .abort
  else .unknown

/-! ## What an image must be -/

/-- The build's flash layout; the parts of an MCUboot build are those of its secondary slot. The flash of the supported
chips has at most a megabyte. -/
structure FlashConfig where
  useMcuboot : Bool
  flashBase : ℕ
  flashEnd : ℕ
  flashUsed : ℕ
  boardMatches : List (BitVec 8) → Bool
  capacity : ℕ
  stagingStart : ℕ
  secondarySize : ℕ
  flashEnd_le : flashEnd ≤ 1048576
  capacity_le : capacity ≤ 1048576
  capacity_le_secondary : capacity ≤ secondarySize

/-- The capacity of a build without a secondary slot. -/
theorem noCapacity_le : 0 ≤ 1048576 := Nat.zero_le _

/-- What the boot library and the radio answer during a BEGIN. -/
structure BeginAnswers where
  radioBusy : Bool
  imageConfirmed : Bool
  areaOpened : Bool
  flattened : Bool
  /-- What a failed erasure of the slot leaves behind. -/
  leftBehind : ℕ → BitVec 8

/-- The largest image. -/
def FlashConfig.maxImageSize (cfg : FlashConfig) : ℕ :=
  if cfg.useMcuboot then cfg.capacity else (cfg.flashEnd - cfg.flashBase) / 2

/-- The staging base of an image. -/
def FlashConfig.stagingBase (cfg : FlashConfig) (imageSize : ℕ) : ℕ :=
  if cfg.useMcuboot then cfg.stagingStart
  else
    let imagePages := (imageSize + flashPageSize - 1) / flashPageSize
    (cfg.flashEnd - imagePages * flashPageSize) / flashPageSize * flashPageSize

/-- The checks of a BEGIN, in their order. -/
def beginCheck (cfg : FlashConfig) (answers : BeginAnswers) (r : BeginRequest) : Except OtaStatus ℕ :=
  if r.protocolVer ≠ 1 then .error .error
  else if cfg.useMcuboot ∧ ¬ answers.imageConfirmed then .error .error
  else if cfg.useMcuboot ∧ ¬ answers.areaOpened then .error .sizeError
  else if r.imageSize = 0 ∨ cfg.maxImageSize < r.imageSize then .error .sizeError
  else if ¬ cfg.boardMatches r.boardTarget then .error .boardMismatch
  else if cfg.useMcuboot ∧ r.flashBase ≠ 0 then .error .sizeError
  else if ¬ cfg.useMcuboot ∧ r.flashBase ≠ 0 ∧ r.flashBase < 0x1000 then .error .sizeError
  else if r.flashBase ≠ 0 ∧ cfg.flashBase < r.flashBase then .error .sizeError
  else if r.flashBase ≠ 0 ∧ cfg.flashEnd < r.flashBase + r.imageSize then .error .sizeError
  else if ¬ cfg.useMcuboot ∧
      cfg.stagingBase r.imageSize < cfg.flashBase + max r.imageSize cfg.flashUsed then .error .sizeError
  else .ok (cfg.stagingBase r.imageSize)

/-! ## The state -/

/-- `enum rcv_ota_state`. -/
inductive RcvOtaState
  | idle
  | ready
  | receiving
  | verifying
  | activatePending
  | activating
  | complete
  | error
deriving DecidableEq

/-- `struct page_write_req`. -/
structure PageWriteReq where
  data : ℕ → BitVec 8
  addr : ℕ
  len : ℕ

/-- The commands of the writer's queue; the two page slots are `false` and `true`. -/
inductive WriterCmd
  | page (slot : Bool)
  | verify
  | activate
  | shutdown
deriving DecidableEq

/-- What `rcv_ota_flush_page_buf` returns to: the loop over a payload, or VERIFY. -/
inductive Flush
  | data (seq : BitVec 16) (payload : List (BitVec 8)) (copied : ℕ)
  | verify

/-- What `rcv_ota_stop_writer` returns to. -/
inductive Stop
  | start (request : BeginRequest) (answers : BeginAnswers)
  | abort

/-- Where the HID command thread is. -/
inductive Handler
  | idle
  /-- In `rcv_ota_send_status`, before and after the code is known. -/
  | status
  | statusSend (code : OtaStatus)
  /-- About to set the state to an error, and then its code. -/
  | fail (code : OtaStatus)
  | failCode (code : OtaStatus)
  /-- At the head of the loop over a payload. -/
  | filling (seq : BitVec 16) (payload : List (BitVec 8)) (copied : ℕ)
  /-- The slot is the producer's. -/
  | copying (seq : BitVec 16) (payload : List (BitVec 8)) (copied : ℕ)
  | flushCheck (k : Flush)
  | flushFill (k : Flush)
  | flushPut (k : Flush)
  | verifyPut
  | activatePut
  | stopFlag (k : Stop)
  | stopWake (k : Stop)
  | stopJoin (k : Stop)
  /-- No writer is left. -/
  | stopped (k : Stop)

/-- What the writer does after a status. -/
inductive AfterStatus
  | loop
  | activate
  | exit
  | reboot

/-- Where the writer thread is. -/
inductive Writer
  /-- Not created, or joined. -/
  | none
  | exited
  | loop
  | get
  | got (cmd : WriterCmd)
  | erase (slot : Bool)
  | program (slot : Bool)
  | setError (slot : Bool)
  | give (slot : Bool)
  | verify
  /-- The first `pos` bytes are read. -/
  | reading (pos : ℕ) (crc : BitVec 32)
  | verifyFail (code : OtaStatus)
  | verifyFailCode (code : OtaStatus)
  | verifyOk
  | status (next : AfterStatus)
  | statusSend (code : OtaStatus) (next : AfterStatus)
  | activate
  | activateRun
  | activateFail
  | activateFailCode
  | completed
  /-- The copier runs, or the receiver reboots. -/
  | gone

/-- The static variables and the flash, and where the threads are; `stream` is what was copied into page buffers since
the session began. -/
structure RcvOta where
  state : RcvOtaState
  imageSize : ℕ
  imageCrc32 : BitVec 32
  nextExpectedSeq : BitVec 16
  bytesWritten : ℕ
  /-- `none` is zero. -/
  errorCode : Option OtaStatus
  stagingBase : ℕ
  pageBufOffset : ℕ
  pageBufFlashAddr : ℕ
  nextWriteSlot : Bool
  pageWriteReqs : Bool → PageWriteReq
  slotSems : Bool → Bool
  pageWriteMsgq : List WriterCmd
  writerError : Bool
  writerStopRequested : Bool
  writerCreated : Bool
  flash : ℕ → BitVec 8
  handler : Handler
  writer : Writer
  stream : List (BitVec 8)

/-- The receiver at boot, with whatever is in its flash. -/
def RcvOta.init (flash : ℕ → BitVec 8) : RcvOta where
  state := .idle
  imageSize := 0
  imageCrc32 := 0
  nextExpectedSeq := 0
  bytesWritten := 0
  errorCode := none
  stagingBase := 0
  pageBufOffset := 0
  pageBufFlashAddr := 0
  nextWriteSlot := false
  pageWriteReqs _ := ⟨fun _ => 0, 0, 0⟩
  slotSems _ := true
  pageWriteMsgq := []
  writerError := false
  writerStopRequested := false
  writerCreated := false
  flash := flash
  handler := .idle
  writer := .none
  stream := []

/-- The visible events. -/
inductive UpdateEvent
  /-- A session began: its writer is created. -/
  | began (size : ℕ) (crc : BitVec 32) (base : ℕ)
  | accepted (seq : BitVec 16) (payload : List (BitVec 8))
  /-- A page is in the writer's queue. -/
  | submitted (slot : Bool)
  /-- The writer starts on a page. -/
  | attempted (addr : ℕ)
  | pageFailed
  /-- The writer gives a slot back. -/
  | released (slot : Bool)
  | verified
  | verifyFailed
  | status (code : OtaStatus)
  /-- The activation routine is entered. -/
  | activating
  /-- An ABORT is completed. -/
  | aborted
deriving DecidableEq

/-! ## Status -/

/-- The status code of `rcv_ota_send_status`, but for the stop flag. -/
def RcvOta.statusCode (s : RcvOta) : OtaStatus :=
  match s.state with
  | .idle => .idle
  | .ready => .ready
  | .receiving => .receiving
  | .verifying => s.errorCode.getD .receiving
  | .activatePending => .receiving
  | .activating => .activating
  | .complete => .complete
  | .error => s.errorCode.getD .idle

/-- The code that is sent. -/
def RcvOta.sentCode (s : RcvOta) (code : OtaStatus) : OtaStatus :=
  if s.writerStopRequested then .timeout else code

/-! ## Checksum -/

/-- One bit of `crc32_ieee_update`. -/
def crc32Bit (crc : BitVec 32) : BitVec 32 := if crc.getLsbD 0 then crc >>> 1 ^^^ 0xEDB88320 else crc >>> 1

def crc32Byte (crc : BitVec 32) (byte : BitVec 8) : BitVec 32 :=
  (List.range 8).foldl (fun crc _ => crc32Bit crc) (crc ^^^ byte.setWidth 32)

/-- `crc32_ieee_update`. -/
def crc32Update (crc : BitVec 32) (bytes : List (BitVec 8)) : BitVec 32 := ~~~ bytes.foldl crc32Byte (~~~ crc)

/-- The checksum of an image. -/
def crc32Ieee (bytes : List (BitVec 8)) : BitVec 32 := crc32Update 0 bytes

/-- Bytes read from the flash. -/
def readFlash (flash : ℕ → BitVec 8) (addr len : ℕ) : List (BitVec 8) := (List.range len).map fun k => flash (addr + k)

/-! ## The HID command thread -/

namespace RcvOta

/-- `memset(&rcv_ota, 0, sizeof(rcv_ota))`. -/
def cleared (s : RcvOta) : RcvOta :=
  { s with
    state := .idle
    imageSize := 0
    imageCrc32 := 0
    nextExpectedSeq := 0
    bytesWritten := 0
    errorCode := none
    stagingBase := 0
    pageBufOffset := 0
    pageBufFlashAddr := 0
    nextWriteSlot := false }

/-- The session of a BEGIN, and `rcv_ota_start_writer`. -/
def startSession (cfg : FlashConfig) (r : BeginRequest) (base : ℕ) (s : RcvOta) : RcvOta :=
  { s.cleared with
    state := .ready
    imageSize := r.imageSize
    imageCrc32 := r.imageCrc32
    stagingBase := base
    pageBufFlashAddr := base
    flash := if cfg.useMcuboot then
        fun a => if base ≤ a ∧ a < base + cfg.secondarySize then 0xFF else s.flash a
      else s.flash
    writerError := false
    writerStopRequested := false
    pageWriteMsgq := []
    slotSems := fun _ => true
    writerCreated := true
    writer := .loop
    stream := []
    handler := .status }

/-- `rcv_ota_handle_begin`, and `rcv_ota_handle_abort`, without a writer. -/
def afterStop (cfg : FlashConfig) (s : RcvOta) : Stop → RcvOta × List UpdateEvent
  | .abort => ({ s.cleared with handler := .idle }, [.aborted])
  | .start r answers =>
    match beginCheck cfg answers r with
    | .error code => ({ s with
        state := .error
        errorCode := some code
        handler := .status }, [])
    | .ok base =>
      if cfg.useMcuboot ∧ ¬ answers.flattened then ({ s.cleared with
        state := .error
        errorCode := some .flashError
        imageSize := r.imageSize
        imageCrc32 := r.imageCrc32
        stagingBase := base
        pageBufFlashAddr := base
        flash := fun a => if base ≤ a ∧ a < base + cfg.secondarySize then answers.leftBehind a else s.flash a
        handler := .status }, [])
      else (s.startSession cfg r base, [.began r.imageSize r.imageCrc32 base])

/-- The start of `rcv_ota_stop_writer`. -/
def stopWriter (s : RcvOta) (k : Stop) : RcvOta :=
  { s with handler := if s.writerCreated then .stopFlag k else .stopped k }

/-- The bytes of a DATA report that belong to the image. -/
def payloadLen (s : RcvOta) (seq : BitVec 16) : ℕ := min dataMaxPayload (s.imageSize - seq.toNat * dataMaxPayload)

/-- The image header is not the build's. -/
def wrongHeader (cfg : FlashConfig) (s : RcvOta) (payload : List (BitVec 8)) : Bool :=
  decide (s.bytesWritten = 0 ∧ 4 ≤ payload.length) &&
    (decide (le32 (payload.getD 0 0) (payload.getD 1 0) (payload.getD 2 0) (payload.getD 3 0) = 0x96F3B83D) !=
      cfg.useMcuboot)

/-- `rcv_ota_handle_data` up to the loop. -/
def handleData (cfg : FlashConfig) (s : RcvOta) (body : Option (BitVec 16 × List (BitVec 8))) : RcvOta :=
  if s.state ≠ .ready ∧ s.state ≠ .receiving then s
  else if s.writerError then { s with handler := .fail .flashError }
  else match body with
    | none => s
    | some (seq, data) =>
      if s.imageSize ≤ seq.toNat * dataMaxPayload then s
      else if seq ≠ s.nextExpectedSeq then
        if seq < s.nextExpectedSeq then s else { s with handler := .fail .seqError }
      else if data.length < s.payloadLen seq then s
      else if s.wrongHeader cfg (data.take (s.payloadLen seq)) then { s with
        state := .receiving
        handler := .fail .verifyFail }
      else { s with
        state := .receiving
        handler := .filling seq (data.take (s.payloadLen seq)) 0 }

/-- `rcv_ota_handle_verify` up to the flush. -/
def handleVerify (s : RcvOta) : RcvOta :=
  if s.state ≠ .receiving ∧ s.state ≠ .ready then { s with handler := .status }
  else if s.bytesWritten ≠ s.imageSize then { s with handler := .fail .seqError }
  else { s with
    state := .verifying
    handler := if 0 < s.pageBufOffset then .flushCheck .verify else .verifyPut }

/-- `rcv_ota_handle_activate` up to the submission. -/
def handleActivate (s : RcvOta) : RcvOta :=
  if s.state ≠ .verifying ∨ s.errorCode ≠ some .verifyOk then { s with handler := .status }
  else { s with
    state := .activatePending
    handler := .activatePut }

/-- The start of `rcv_ota_handle_begin`. -/
def handleBegin (s : RcvOta) (request : Option BeginRequest) (answers : BeginAnswers) : RcvOta :=
  match request with
  | none => s
  | some r =>
    if s.state ≠ .idle ∧ s.state ≠ .error ∧ s.state ≠ .complete ∧ ¬ s.writerStopRequested then
      { s with handler := .status }
    else s.stopWriter (.start r answers)

/-- `receiver_ota_process_hid`. -/
def processHid (cfg : FlashConfig) (answers : BeginAnswers) (data : List (BitVec 8)) (s : RcvOta) : RcvOta :=
  if data.length < 2 then s
  else match parseReport data with
    | .queryInfo => s
    | .start request =>
      if s.state = .idle ∧ answers.radioBusy then { s with handler := .status } else s.handleBegin request answers
    | .abort => s.stopWriter .abort
    | .data body => if s.writerStopRequested then { s with handler := .status } else s.handleData cfg body
    | .verify => if s.writerStopRequested then { s with handler := .status } else s.handleVerify
    | .activate => if s.writerStopRequested then { s with handler := .status } else s.handleActivate
    | .unknown => if s.writerStopRequested then { s with handler := .status } else s

/-- A command for the writer, if the queue has room; with `ok` false the time for it has run out. -/
def put (s : RcvOta) (cmd : WriterCmd) (ok : Bool) (done : RcvOta × List UpdateEvent) (failed : OtaStatus) :
    Option (RcvOta × List UpdateEvent) :=
  if ok then
    if s.pageWriteMsgq.length < writerQueueSize then
      some ({ done.1 with pageWriteMsgq := s.pageWriteMsgq ++ [cmd] }, done.2)
    else none
  else if s.pageWriteMsgq.length < writerQueueSize then none else some ({ s with handler := .fail failed }, [])

/-- Where a flushed page leads. -/
def afterFlush : Flush → Handler
  | .data seq payload copied => .filling seq payload copied
  | .verify => .verifyPut

/-- The number of bytes the loop copies at once. -/
def chunk (s : RcvOta) (payload : List (BitVec 8)) (copied : ℕ) : ℕ :=
  min (flashPageSize - s.pageBufOffset) (payload.length - copied)

/-- The HID command thread goes on; `ok` tells how a wait ended, and after a payload whether a status is due. -/
def handlerStep (cfg : FlashConfig) (ok : Bool) (s : RcvOta) : Option (RcvOta × List UpdateEvent) :=
  match s.handler with
  | .idle => none
  | .status => some ({ s with handler := .statusSend s.statusCode }, [])
  | .statusSend code => some ({ s with handler := .idle }, [.status (s.sentCode code)])
  | .fail code => some ({ s with
      state := .error
      handler := .failCode code }, [])
  | .failCode code => some ({ s with
      errorCode := some code
      handler := .status }, [])
  | .filling seq payload copied =>
    if copied < payload.length then
      if s.pageBufOffset = 0 then
        if s.slotSems s.nextWriteSlot then
          if ok then some ({ s with
            slotSems := update s.slotSems s.nextWriteSlot false
            handler := .copying seq payload copied }, [])
          else none
        else if ok then none else some ({ s with handler := .fail .flashError }, [])
      else some ({ s with handler := .copying seq payload copied }, [])
    else some ({ s with
      bytesWritten := s.bytesWritten + payload.length
      nextExpectedSeq := seq + 1
      handler := if ok then .status else .idle }, [.accepted seq payload])
  | .copying seq payload copied =>
    let n := s.chunk payload copied
    let bytes := (payload.drop copied).take n
    let req := s.pageWriteReqs s.nextWriteSlot
    some ({ s with
      pageWriteReqs := update s.pageWriteReqs s.nextWriteSlot
        { req with data := writeBytes req.data s.pageBufOffset bytes }
      pageBufOffset := s.pageBufOffset + n
      stream := s.stream ++ bytes
      handler := if flashPageSize ≤ s.pageBufOffset + n then .flushCheck (.data seq payload (copied + n))
        else .filling seq payload (copied + n) }, [])
  | .flushCheck k =>
    some ({ s with handler := if s.writerError then .fail .flashError else .flushFill k }, [])
  | .flushFill k =>
    let req := s.pageWriteReqs s.nextWriteSlot
    some ({ s with
      pageWriteReqs := update s.pageWriteReqs s.nextWriteSlot
        { data := fun j => if s.pageBufOffset ≤ j ∧ j < flashPageSize then 0xFF else req.data j
          addr := s.pageBufFlashAddr
          len := s.pageBufOffset }
      handler := .flushPut k }, [])
  | .flushPut k => s.put (.page s.nextWriteSlot) ok ({ s with
      nextWriteSlot := !s.nextWriteSlot
      pageBufFlashAddr := s.pageBufFlashAddr + flashPageSize
      pageBufOffset := 0
      handler := afterFlush k }, [.submitted s.nextWriteSlot]) .flashError
  | .verifyPut => s.put .verify ok ({ s with handler := .idle }, []) .error
  | .activatePut => s.put .activate ok ({ s with handler := .idle }, []) .error
  | .stopFlag k => some ({ s with
      writerStopRequested := true
      handler := .stopWake k }, [])
  | .stopWake k => some ({ s with
      pageWriteMsgq := if s.pageWriteMsgq.length < writerQueueSize then s.pageWriteMsgq ++ [WriterCmd.shutdown]
        else s.pageWriteMsgq
      handler := .stopJoin k }, [])
  | .stopJoin k =>
    match s.writer, ok with
    | .exited, true => some ({ s with
        slotSems := if 0 < s.pageBufOffset then update s.slotSems s.nextWriteSlot true else s.slotSems
        pageBufOffset := 0
        writerCreated := false
        writerStopRequested := false
        writer := .none
        handler := .stopped k }, [])
    | .exited, false | .none, _ => none
    | _, true => none
    | _, false => some ({ s with handler := .status }, [])
  | .stopped k => some (s.afterStop cfg k)

/-! ## The writer thread -/

/-- Where a status leads. -/
def afterStatus : AfterStatus → Writer
  | .loop => .loop
  | .activate => .activateRun
  | .exit => .exited
  | .reboot => .gone

/-- The first place for a command. -/
def startCommand (cfg : FlashConfig) : WriterCmd → Writer
  | .page slot => if cfg.useMcuboot then .program slot else .erase slot
  | .verify => .verify
  | .activate => .activate
  | .shutdown => .exited

/-- The flash with a page whose contents are unknown. -/
def spoiled (garbage flash : ℕ → BitVec 8) (addr : ℕ) : ℕ → BitVec 8 :=
  fun a => if addr ≤ a ∧ a < addr + flashPageSize then garbage a else flash a

/-- `rcv_ota_writer_fn` from where it is; `ok` is what a flash or boot call answers, and `garbage` what a failed one
leaves behind. -/
def writerStep (cfg : FlashConfig) (ok : Bool) (garbage : ℕ → BitVec 8) (s : RcvOta) :
    Option (RcvOta × List UpdateEvent) :=
  match s.writer with
  | .none | .exited | .gone => none
  | .loop => some ({ s with writer := if s.writerStopRequested then .exited else .get }, [])
  | .get =>
    match s.pageWriteMsgq with
    | [] => none
    | cmd :: rest => some ({ s with
        pageWriteMsgq := rest
        writer := .got cmd }, [])
  | .got cmd =>
    if s.writerStopRequested then some ({ s with writer := .exited }, [])
    else some ({ s with writer := startCommand cfg cmd }, match cmd with
      | .page slot => [.attempted (s.pageWriteReqs slot).addr]
      | _ => [])
  | .erase slot =>
    let addr := (s.pageWriteReqs slot).addr
    if ok then some ({ s with
      flash := spoiled (fun _ => 0xFF) s.flash addr
      writer := .program slot }, [])
    else some ({ s with
      flash := spoiled garbage s.flash addr
      writer := .setError slot }, [.pageFailed])
  | .program slot =>
    let req := s.pageWriteReqs slot
    -- programming clears bits
    if ok then some ({ s with
      flash := fun a => if req.addr ≤ a ∧ a < req.addr + req.len then s.flash a &&& req.data (a - req.addr)
        else s.flash a
      writer := .give slot }, [])
    else some ({ s with
      flash := spoiled garbage s.flash req.addr
      writer := .setError slot }, [.pageFailed])
  | .setError slot => some ({ s with
      writerError := true
      writer := .give slot }, [])
  | .give slot => some ({ s with
      slotSems := update s.slotSems slot true
      writer := .loop }, [.released slot])
  | .verify => some ({ s with writer := if s.writerError then .verifyFail .flashError else .reading 0 0 }, [])
  | .reading pos crc =>
    if pos < s.imageSize then
      if ok then
        let n := min (s.imageSize - pos) 256
        some ({ s with writer := .reading (pos + n) (crc32Update crc (readFlash s.flash (s.stagingBase + pos) n)) }, [])
      else some ({ s with writer := .verifyFail .flashError }, [])
    else some ({ s with writer := if crc ≠ s.imageCrc32 then .verifyFail .verifyFail else .verifyOk }, [])
  | .verifyFail code => some ({ s with
      state := .error
      writer := .verifyFailCode code }, [.verifyFailed])
  | .verifyFailCode code => some ({ s with
      errorCode := some code
      writer := .status .loop }, [])
  | .verifyOk => some ({ s with
      errorCode := some .verifyOk
      writer := .status .loop }, [.verified])
  | .status next => some ({ s with writer := .statusSend s.statusCode next }, [])
  | .statusSend code next => some ({ s with writer := afterStatus next }, [.status (s.sentCode code)])
  | .activate => some ({ s with
      state := .activating
      writer := .status .activate }, [.activating])
  | .activateRun =>
    some ({ s with writer := if ok then (if cfg.useMcuboot then .completed else .gone) else .activateFail }, [])
  | .activateFail => some ({ s with
      state := .error
      writer := .activateFailCode }, [])
  | .activateFailCode => some ({ s with
      errorCode := some .flashError
      writer := .status .exit }, [])
  | .completed => some ({ s with
      state := .complete
      writer := .status .reboot }, [])

end RcvOta

/-- The steps: a report for the waiting command thread, or a thread goes on. -/
inductive UpdateOp
  | hid (data : List (BitVec 8)) (answers : BeginAnswers)
  | handler (ok : Bool)
  | writer (ok : Bool) (garbage : ℕ → BitVec 8)

/-- One step. -/
def updateStep (cfg : FlashConfig) (s : RcvOta) : UpdateOp → Option (RcvOta × List UpdateEvent)
  | .hid data answers =>
    match s.handler with
    | .idle => some (s.processHid cfg answers data, [])
    | _ => none
  | .handler ok => s.handlerStep cfg ok
  | .writer ok garbage => s.writerStep cfg ok garbage

/-- The receiver from boot on. -/
def selfUpdateSystem (cfg : FlashConfig) (flash : ℕ → BitVec 8) : EventSystem RcvOta UpdateOp UpdateEvent where
  init := .init flash
  step := updateStep cfg

end SlimeReceiver.SelfUpdate
