import SlimeReceiver.SelfUpdate.Stages

/-! # Verification is sound

* **`PlaceOk`** — what the HID command thread knows where it is.
* **`VerifyInvariant`** — the packets, the pages, the flash and the stage of a session.
* **`verification_sound`** — what VERIFY_OK and the activation mean. -/

namespace SlimeReceiver.SelfUpdate

open Function (update update_self update_of_ne)

/-- The pages of the session submitted so far. -/
def UpdateHistory.pages (h : UpdateHistory) : ℕ := h.released + h.outstanding.length

/-- The page being filled holds the end of the stream. -/
def Filled (h : UpdateHistory) (s : RcvOta) : Prop :=
  Buffered h.pages s.pageBufOffset (s.pageWriteReqs s.nextWriteSlot).data s.stream

/-- The next packet is being copied. -/
structure Receiving (h : UpdateHistory) (stream : List (BitVec 8)) (seq : BitVec 16) (payload : List (BitVec 8))
    (copied : ℕ) : Prop where
  stream : stream = h.bytes ++ payload.take copied
  copied : copied ≤ payload.length
  seq : seq.toNat = h.packets
  more : h.packets * dataMaxPayload < h.size
  length : payload.length = packetLen h.size h.packets

/-- The whole image is in the stream, and no DATA is taken in any more. -/
structure Complete (h : UpdateHistory) (s : RcvOta) : Prop where
  stream : s.stream = h.bytes
  whole : h.bytes.length = h.size
  closed : s.state.opened = false

/-- A page is being flushed. -/
def FlushOk (h : UpdateHistory) (s : RcvOta) : Flush → Prop
  | .data seq payload copied =>
    Receiving h s.stream seq payload copied ∧ Filled h s ∧ s.pageBufOffset = flashPageSize
  | .verify => Complete h s ∧ Filled h s ∧ s.pageBufOffset ≤ flashPageSize

/-- What the HID command thread knows where it is. -/
def PlaceOk (h : UpdateHistory) (s : RcvOta) : Handler → Prop
  | .filling seq payload copied | .copying seq payload copied =>
    Receiving h s.stream seq payload copied ∧ Filled h s ∧ s.pageBufOffset < flashPageSize
  | .flushCheck k | .flushFill k => FlushOk h s k
  | .flushPut k => FlushOk h s k ∧ (s.pageWriteReqs s.nextWriteSlot).len = s.pageBufOffset
  | .verifyPut => Complete h s ∧ s.stream.length ≤ flashPageSize * h.pages
  | .activatePut => h.verified = true
  | .statusSend code => code = .verifyOk → h.verified = true
  | .fail code => code ≠ .verifyOk
  | .failCode code => code ≠ .verifyOk ∧ s.state.opened = false
  | _ => True

/-- Pages may be submitted from here. -/
def Handler.storing : Handler → Bool
  | .filling _ _ _ | .copying _ _ _ | .flushCheck _ | .flushFill _ | .flushPut _ | .verifyPut => true
  | _ => false

/-- No report is under way but an answer or an end. -/
def Handler.calm : Handler → Bool
  | .idle | .status | .statusSend _ | .stopFlag _ | .stopWake _ | .stopJoin _ => true
  | _ => false

/-- The next packet can be copied. -/
structure Ready (h : UpdateHistory) (s : RcvOta) : Prop where
  stream : s.stream = h.bytes
  filled : Filled h s
  room : s.pageBufOffset < flashPageSize

/-- What holds of a session. -/
structure VerifyInvariant (cfg : FlashConfig) (h : UpdateHistory) (s : RcvOta) : Prop where
  counted : Counted cfg h s.imageSize s.imageCrc32 s.bytesWritten s.nextExpectedSeq
  bounded : s.stream.length ≤ h.size
  pages : Pages h.outstanding h.released s.pageWriteReqs s.stream
  staged : Staged cfg h s.writer s.writerError s.flash s.stream
  stage : Stage h s.writer s.pageWriteMsgq s.errorCode s.writerError s.flash s.stream
  early : s.state.opened = true ∨ s.handler.storing = true → Storing h s.writer s.pageWriteMsgq s.errorCode
  place : PlaceOk h s s.handler
  ready : s.state.opened = true → s.handler.calm = true → Ready h s

/-- The packets are accepted in order, and VERIFY_OK and the activation come only after a check that went well. -/
def UpdateHistory.Answers (h : UpdateHistory) : UpdateEvent → Prop
  | .accepted seq payload =>
    seq.toNat = h.packets ∧ h.packets * dataMaxPayload < h.size ∧ payload.length = packetLen h.size h.packets
  | .status code => code = .verifyOk → h.verified = true
  | .activating => h.verified = true
  | _ => True

section Producer

variable {cfg : FlashConfig} {h h' : UpdateHistory} {s s' : RcvOta} {es : List UpdateEvent} {ok : Bool}
  {garbage : ℕ → BitVec 8}

/-! ## The writer's steps -/

/-- The producer's part of the state is left as it is. -/
structure SameProducer (s s' : RcvOta) : Prop where
  imageSize : s'.imageSize = s.imageSize
  imageCrc32 : s'.imageCrc32 = s.imageCrc32
  bytesWritten : s'.bytesWritten = s.bytesWritten
  nextExpectedSeq : s'.nextExpectedSeq = s.nextExpectedSeq
  stream : s'.stream = s.stream
  offset : s'.pageBufOffset = s.pageBufOffset
  reqs : s'.pageWriteReqs = s.pageWriteReqs
  slot : s'.nextWriteSlot = s.nextWriteSlot

/-- So is the producer's part of the history. -/
structure SameImage (h h' : UpdateHistory) : Prop where
  size : h'.size = h.size
  crc : h'.crc = h.crc
  base : h'.base = h.base
  bytes : h'.bytes = h.bytes
  packets : h'.packets = h.packets

theorem writerStep_producer (hstep : s.writerStep cfg ok garbage = some (s', es)) :
    s'.handler = s.handler ∧ SameProducer s s' ∧ SameImage h (es.foldl UpdateHistory.follow h) := by
  unfold RcvOta.writerStep at hstep
  repeat' split at hstep
  all_goals
    cases hstep <;> exact ⟨rfl, ⟨rfl, rfl, rfl, rfl, rfl, rfl, rfl, rfl⟩, rfl, rfl, rfl, rfl, rfl⟩

theorem Filled.same (hfilled : Filled h s) (hsame : SameProducer s s') (hpages : h'.pages = h.pages) : Filled h' s' := by
  unfold Filled
  rw [hpages, hsame.offset, hsame.reqs, hsame.slot, hsame.stream]
  exact hfilled

theorem Receiving.same {stream : List (BitVec 8)} {seq : BitVec 16} {payload : List (BitVec 8)} {copied : ℕ}
    (hreceiving : Receiving h stream seq payload copied) (himage : SameImage h h') :
    Receiving h' stream seq payload copied := by
  obtain ⟨hstream, hcopied, hseq, hmore, hlength⟩ := hreceiving
  refine ⟨?_, hcopied, ?_, ?_, ?_⟩
  · rwa [himage.bytes]
  · rwa [himage.packets]
  · rwa [himage.packets, himage.size]
  · rwa [himage.size, himage.packets]

theorem Complete.same (hcomplete : Complete h s) (hsame : SameProducer s s') (himage : SameImage h h')
    (hopened : s'.state.opened = true → s.state.opened = true) : Complete h' s' where
  stream := by rw [hsame.stream, himage.bytes, hcomplete.stream]
  whole := by rw [himage.bytes, himage.size, hcomplete.whole]
  closed := Bool.eq_false_iff.mpr fun hopen => absurd (hcomplete.closed.symm.trans (hopened hopen)) (by decide)

theorem FlushOk.same {k : Flush} (hflush : FlushOk h s k) (hsame : SameProducer s s') (himage : SameImage h h')
    (hpages : h'.pages = h.pages) (hopened : s'.state.opened = true → s.state.opened = true) : FlushOk h' s' k := by
  cases k with
  | data seq payload copied =>
    refine ⟨?_, hflush.2.1.same hsame hpages, hsame.offset.trans hflush.2.2⟩
    rw [hsame.stream]
    exact hflush.1.same himage
  | verify =>
    refine ⟨hflush.1.same hsame himage hopened, hflush.2.1.same hsame hpages, ?_⟩
    rw [hsame.offset]
    exact hflush.2.2

theorem PlaceOk.same {p : Handler} (hplace : PlaceOk h s p) (hsame : SameProducer s s') (himage : SameImage h h')
    (hpages : h'.pages = h.pages) (hopened : s'.state.opened = true → s.state.opened = true)
    (hverified : h.verified = true → h'.verified = true) : PlaceOk h' s' p := by
  cases p with
  | idle | status | stopFlag | stopWake | stopJoin | stopped => trivial
  | statusSend code => exact fun hcode => hverified (hplace hcode)
  | fail code => exact hplace
  | failCode code =>
    refine ⟨hplace.1, Bool.eq_false_iff.mpr fun hopen => ?_⟩
    exact absurd (hplace.2.symm.trans (hopened hopen)) (by decide)
  | filling seq payload copied | copying seq payload copied =>
    refine ⟨?_, hplace.2.1.same hsame hpages, ?_⟩
    · rw [hsame.stream]
      exact hplace.1.same himage
    · rw [hsame.offset]
      exact hplace.2.2
  | flushCheck k | flushFill k => exact FlushOk.same hplace hsame himage hpages hopened
  | flushPut k =>
    refine ⟨hplace.1.same hsame himage hpages hopened, ?_⟩
    rw [hsame.reqs, hsame.slot, hsame.offset]
    exact hplace.2
  | verifyPut =>
    refine ⟨hplace.1.same hsame himage hopened, ?_⟩
    rw [hsame.stream, hpages]
    exact hplace.2
  | activatePut => exact hverified hplace

theorem Ready.same (hready : Ready h s) (hsame : SameProducer s s') (himage : SameImage h h')
    (hpages : h'.pages = h.pages) : Ready h' s' where
  stream := by rw [hsame.stream, himage.bytes, hready.stream]
  filled := hready.filled.same hsame hpages
  room := by
    rw [hsame.offset]
    exact hready.room

/-- The writer does not change how many pages were submitted. -/
theorem writerStep_pages (hown : OwnInvariant h s) (hstep : s.writerStep cfg ok garbage = some (s', es)) :
    (es.foldl UpdateHistory.follow h).pages = h.pages := by
  cases hplace : s.writer with
  | give slot =>
    simp only [RcvOta.writerStep, hplace] at hstep
    cases hstep
    exact hown.pages_release hplace
  | got cmd =>
    simp only [RcvOta.writerStep, hplace] at hstep
    split at hstep
    · cases hstep
      rfl
    · cases hstep
      cases cmd <;> rfl
  | none | exited | loop | get | erase | program | setError | verify | reading | verifyFail | verifyFailCode | verifyOk
  | status | statusSend | activate | activateRun | activateFail | activateFailCode | completed | gone =>
    simp only [RcvOta.writerStep, hplace] at hstep
    repeat' split at hstep
    all_goals cases hstep <;> rfl

/-- The pages it has keep their contents. -/
theorem writerStep_contents (hown : OwnInvariant h s) (hpages : Pages h.outstanding h.released s.pageWriteReqs s.stream)
    (hstep : s.writerStep cfg ok garbage = some (s', es)) :
    Pages (es.foldl UpdateHistory.follow h).outstanding (es.foldl UpdateHistory.follow h).released s'.pageWriteReqs
      s'.stream := by
  cases hplace : s.writer with
  | give slot =>
    have hpipeline := hown.pipeline (by rw [hplace]; rfl)
    rw [hplace] at hpipeline
    simp only [RcvOta.writerStep, hplace] at hstep
    cases hstep
    show Pages (h.outstanding.erase slot) (h.released + 1) s.pageWriteReqs s.stream
    rw [← hpipeline] at hpages ⊢
    have hrest : (Writer.give slot).held ++ pagesOf s.pageWriteMsgq = slot :: pagesOf s.pageWriteMsgq := rfl
    rw [hrest] at hpages ⊢
    rw [List.erase_cons_head]
    exact hpages.release
  | got cmd =>
    simp only [RcvOta.writerStep, hplace] at hstep
    split at hstep
    · cases hstep
      exact hpages
    · cases hstep
      cases cmd <;> exact hpages
  | none | exited | loop | get | erase | program | setError | verify | reading | verifyFail | verifyFailCode | verifyOk
  | status | statusSend | activate | activateRun | activateFail | activateFailCode | completed | gone =>
    simp only [RcvOta.writerStep, hplace] at hstep
    repeat' split at hstep
    all_goals cases hstep <;> exact hpages

/-- The page the writer has goes to its place in the flash. -/
theorem writerStep_staged (hown : OwnInvariant h s) (hver : VerifyInvariant cfg h s)
    (hstep : s.writerStep cfg ok garbage = some (s', es)) :
    Staged cfg (es.foldl UpdateHistory.follow h) s'.writer s'.writerError s'.flash s'.stream := by
  have hstaged := hver.staged
  have hfirst : ∀ slot, s.writer = .erase slot ∨ s.writer = .program slot → h.outstanding[0]? = some slot := by
    intro slot hplace
    have hpipeline := hown.pipeline (by rcases hplace with hplace | hplace <;> rw [hplace] <;> rfl)
    rw [← hpipeline]
    rcases hplace with hplace | hplace <;> rw [hplace] <;> rfl
  cases hplace : s.writer with
  | none | exited | gone =>
    simp only [RcvOta.writerStep, hplace] at hstep
    cases hstep
  | got cmd =>
    rw [hplace] at hstaged
    simp only [RcvOta.writerStep, hplace] at hstep
    split at hstep
    · cases hstep
      exact hstaged.work rfl rfl (by rintro _ ⟨⟩)
    · cases hstep
      have hstart := hstaged.start rfl hver.counted.fits
      cases cmd <;> exact hstart.congr rfl rfl rfl rfl
  | erase slot =>
    rw [hplace] at hstaged
    simp only [RcvOta.writerStep, hplace] at hstep
    split at hstep
    · cases hstep
      exact hstaged.erase (hown.addrs 0 slot (hfirst slot (.inl hplace)))
    · cases hstep
      exact .fail
  | program slot =>
    rw [hplace] at hstaged
    simp only [RcvOta.writerStep, hplace] at hstep
    split at hstep
    · cases hstep
      obtain ⟨hlen, hdata⟩ := hver.pages 0 slot (hfirst slot (.inr hplace))
      exact hstaged.program (hown.addrs 0 slot (hfirst slot (.inr hplace))) hlen hdata hver.bounded
    · cases hstep
      exact .fail
  | setError slot =>
    simp only [RcvOta.writerStep, hplace] at hstep
    cases hstep
    exact .setError
  | give slot =>
    rw [hplace] at hstaged
    simp only [RcvOta.writerStep, hplace] at hstep
    cases hstep
    exact hstaged.release
  | loop =>
    rw [hplace] at hstaged
    simp only [RcvOta.writerStep, hplace] at hstep
    cases hstep
    refine hstaged.work rfl ?_ fun slot => ?_
    · show (if _ then Writer.exited else Writer.get).stored = 0
      split <;> rfl
    · show (if _ then Writer.exited else Writer.get) ≠ _
      split <;> rintro ⟨⟩
  | get =>
    rw [hplace] at hstaged
    simp only [RcvOta.writerStep, hplace] at hstep
    split at hstep
    · cases hstep
    · cases hstep
      exact hstaged.work rfl rfl (by rintro _ ⟨⟩)
  | verify =>
    rw [hplace] at hstaged
    simp only [RcvOta.writerStep, hplace] at hstep
    cases hstep
    refine hstaged.work rfl ?_ fun slot => ?_
    · show (if _ then Writer.verifyFail _ else Writer.reading _ _).stored = 0
      split <;> rfl
    · show (if _ then Writer.verifyFail _ else Writer.reading _ _) ≠ _
      split <;> rintro ⟨⟩
  | reading pos crc =>
    rw [hplace] at hstaged
    simp only [RcvOta.writerStep, hplace] at hstep
    split at hstep
    · split at hstep
      · cases hstep
        exact hstaged.work rfl rfl (by rintro _ ⟨⟩)
      · cases hstep
        exact hstaged.work rfl rfl (by rintro _ ⟨⟩)
    · cases hstep
      refine hstaged.work rfl ?_ fun slot => ?_
      · show (if _ then Writer.verifyFail _ else Writer.verifyOk).stored = 0
        split <;> rfl
      · show (if _ then Writer.verifyFail _ else Writer.verifyOk) ≠ _
        split <;> rintro ⟨⟩
  | statusSend code next =>
    rw [hplace] at hstaged
    simp only [RcvOta.writerStep, hplace] at hstep
    cases hstep
    cases next <;> exact hstaged.work rfl rfl (by rintro _ ⟨⟩)
  | activateRun =>
    rw [hplace] at hstaged
    simp only [RcvOta.writerStep, hplace] at hstep
    cases hstep
    refine hstaged.work rfl ?_ fun slot => ?_
    · show (if _ then (if _ then Writer.completed else Writer.gone) else Writer.activateFail).stored = 0
      split
      · split <;> rfl
      · rfl
    · show (if _ then (if _ then Writer.completed else Writer.gone) else Writer.activateFail) ≠ _
      split
      · split <;> rintro ⟨⟩
      · rintro ⟨⟩
  | verifyFail | verifyFailCode | verifyOk | status | activate | activateFail | activateFailCode | completed =>
    rw [hplace] at hstaged
    simp only [RcvOta.writerStep, hplace] at hstep
    cases hstep
    refine Staged.congr (h := h) ?_ rfl rfl rfl rfl
    exact hstaged.work rfl rfl (by rintro _ ⟨⟩)

/-- The writer accepts nothing. -/
theorem writerStep_answers (hstep : s.writerStep cfg ok garbage = some (s', es))
    (hanswered : UpdateEvent.status .verifyOk ∈ es ∨ UpdateEvent.activating ∈ es → h.verified = true) :
    ∀ e ∈ es, h.Answers e := by
  intro e he
  cases e with
  | began | submitted | attempted | pageFailed | released | verified | verifyFailed | aborted => trivial
  | status code =>
    rintro rfl
    exact hanswered (.inl he)
  | activating => exact hanswered (.inr he)
  | accepted seq payload =>
    refine absurd he ?_
    unfold RcvOta.writerStep at hstep
    repeat' split at hstep
    all_goals cases hstep <;> simp

/-- The writer keeps the invariant. -/
theorem writerStep_verify (hown : OwnInvariant h s) (hver : VerifyInvariant cfg h s)
    (hstep : s.writerStep cfg ok garbage = some (s', es)) :
    VerifyInvariant cfg (es.foldl UpdateHistory.follow h) s' ∧ ∀ e ∈ es, h.Answers e := by
  obtain ⟨hhandler, hsame, himage⟩ := writerStep_producer (h := h) hstep
  have hpages := writerStep_pages hown hstep
  have hstage : Stage (es.foldl UpdateHistory.follow h) s'.writer s'.pageWriteMsgq s'.errorCode s'.writerError s'.flash
      s'.stream ∧ (∀ e ∈ es, h.Answers e) ∧ (s'.state.opened = true → s.state.opened = true) ∧
        (h.verified = true → (es.foldl UpdateHistory.follow h).verified = true) := by
    cases hver.stage with
    | storing hs =>
      obtain ⟨hnew, hstate, hstatus, hactivating⟩ := hs.step hstep
      rw [hstate]
      refine ⟨.storing hnew, writerStep_answers hstep fun hanswer => ?_, id, fun hverified => ?_⟩
      · exact (hanswer.elim hstatus hactivating).elim
      · exact absurd (hverified.symm.trans hs.verified) (by decide)
    | checking hs =>
      obtain ⟨hnew, ⟨hstatus, hactivating⟩, hopened⟩ := hs.step hown hver.counted hver.staged hstep
      refine ⟨hnew, writerStep_answers hstep fun hanswer => ?_, hopened, fun hverified => ?_⟩
      · exact (hanswer.elim hstatus hactivating).elim
      · exact absurd (hverified.symm.trans hs.verified) (by decide)
    | settled hs =>
      obtain ⟨hhistory, hnew, hanswered, hopened⟩ := hs.step hstep
      rw [hhistory]
      exact ⟨.settled hnew, writerStep_answers hstep hanswered, hopened, id⟩
  obtain ⟨hstage, hanswered, hopened, hverified⟩ := hstage
  refine ⟨⟨?_, ?_, writerStep_contents hown hver.pages hstep, writerStep_staged hown hver hstep, hstage, ?_, ?_, ?_⟩,
    hanswered⟩
  · rw [hsame.imageSize, hsame.imageCrc32, hsame.bytesWritten, hsame.nextExpectedSeq]
    exact hver.counted.congr himage.size himage.crc himage.bytes himage.packets
  · rw [hsame.stream, himage.size]
    exact hver.bounded
  · rw [hhandler]
    exact fun hearly => ((hver.early (hearly.imp_left hopened)).step hstep).1
  · rw [hhandler]
    exact hver.place.same hsame himage hpages hopened hverified
  · rw [hhandler]
    exact fun hopen hcalm => (hver.ready (hopened hopen) hcalm).same hsame himage hpages

/-! ## The HID command thread's steps -/

/-- The HID command thread goes on without touching a page or the queue. -/
theorem VerifyInvariant.go (hver : VerifyInvariant cfg h s) {st : RcvOtaState} {code : Option OtaStatus} {p : Handler}
    (hcode : code = s.errorCode ∨ ∃ c, code = some c ∧ c ≠ .verifyOk ∧ st.opened = false ∧ p.storing = false)
    (hearly : st.opened = true ∨ p.storing = true → s.state.opened = true ∨ s.handler.storing = true)
    (hplace : PlaceOk h { s with state := st } p) (hready : st.opened = true → p.calm = true → Ready h s) :
    VerifyInvariant cfg h { s with
      state := st
      errorCode := code
      handler := p } where
  counted := hver.counted
  bounded := hver.bounded
  pages := hver.pages
  staged := hver.staged
  stage := by
    rcases hcode with rfl | ⟨c, rfl, hc, -⟩
    · exact hver.stage
    · exact hver.stage.fail hc
  early hnew := by
    rcases hcode with rfl | ⟨c, rfl, -, hclosed, hcalm⟩
    · exact hver.early (hearly hnew)
    · rcases hnew with hnew | hnew
      · exact absurd (hclosed.symm.trans hnew) (by decide)
      · exact absurd (hcalm.symm.trans hnew) (by decide)
  place := hplace.same ⟨rfl, rfl, rfl, rfl, rfl, rfl, rfl, rfl⟩ ⟨rfl, rfl, rfl, rfl, rfl⟩ rfl id id
  ready hopen hcalm := (hready hopen hcalm).same ⟨rfl, rfl, rfl, rfl, rfl, rfl, rfl, rfl⟩ ⟨rfl, rfl, rfl, rfl, rfl⟩ rfl

/-- The waiting HID command thread answers or ends the session. -/
theorem VerifyInvariant.answer (hver : VerifyInvariant cfg h s) (hidle : s.handler = .idle) {p : Handler}
    (hcalm : p = .idle ∨ p = .status ∨ ∃ k, p = .stopFlag k) : VerifyInvariant cfg h { s with handler := p } := by
  have hplace : PlaceOk h s p ∧ p.storing = false := by
    rcases hcalm with rfl | rfl | ⟨k, rfl⟩ <;> exact ⟨trivial, rfl⟩
  refine hver.go (.inl rfl) (fun hnew => hnew.imp_right fun hstoring => ?_) hplace.1 fun hopen _ => ?_
  · exact absurd (hplace.2.symm.trans hstoring) (by decide)
  · exact hver.ready hopen (by rw [hidle]; rfl)

theorem handleData_verify (hver : VerifyInvariant cfg h s) (hidle : s.handler = .idle)
    (body : Option (BitVec 16 × List (BitVec 8))) : VerifyInvariant cfg h (s.handleData cfg body) := by
  have hfail : ∀ {st : RcvOtaState} {code : OtaStatus}, (st.opened = true → s.state.opened = true) →
      code ≠ .verifyOk → VerifyInvariant cfg h { s with
        state := st
        handler := .fail code } := by
    intro st code hopened hcode
    exact hver.go (.inl rfl) (fun hnew => .inl (hnew.elim hopened nofun)) hcode nofun
  unfold RcvOta.handleData
  split
  · exact hver
  case isFalse hstate =>
    have hopen : s.state.opened = true := by
      cases hcase : s.state <;> first | rfl | exact absurd (by rw [hcase]; decide) hstate
    obtain ⟨hstream, hfilled, hroom⟩ := hver.ready hopen (by rw [hidle]; rfl)
    split
    · exact hfail id (by decide)
    split
    · exact hver
    split
    · exact hver
    case isFalse hmore =>
      split
      · split
        · exact hver
        · exact hfail id (by decide)
      case isFalse hseq =>
        split
        · exact hver
        case isFalse hlength =>
          split
          · exact hfail (fun _ => hopen) (by decide)
          · have hnext := (congrArg BitVec.toNat (not_not.mp hseq)).trans hver.counted.seq
            refine hver.go (.inl rfl) (fun _ => .inl hopen) ⟨⟨?_, Nat.zero_le _, hnext, ?_, ?_⟩, hfilled, hroom⟩ nofun
            · rw [List.take_zero, List.append_nil]
              exact hstream
            · rw [← hnext, ← hver.counted.size]
              exact Nat.lt_of_not_le hmore
            · rw [← hnext, ← hver.counted.size, List.length_take]
              exact Nat.min_eq_left (Nat.le_of_not_lt hlength)

theorem handleVerify_verify (hver : VerifyInvariant cfg h s) (hidle : s.handler = .idle) :
    VerifyInvariant cfg h s.handleVerify := by
  unfold RcvOta.handleVerify
  split
  · exact hver.answer hidle (.inr (.inl rfl))
  case isFalse hstate =>
    have hopen : s.state.opened = true := by
      cases hcase : s.state <;> first | rfl | exact absurd (by rw [hcase]; decide) hstate
    obtain ⟨hstream, hfilled, hroom⟩ := hver.ready hopen (by rw [hidle]; rfl)
    split
    · exact hver.go (.inl rfl) (fun _ => .inl hopen) (by show OtaStatus.seqError ≠ .verifyOk; decide) nofun
    case isFalse hwritten =>
      have hwhole : h.bytes.length = h.size := by
        rw [← hver.counted.written, ← hver.counted.size]
        exact not_not.mp hwritten
      split
      · exact hver.go (.inl rfl) (fun _ => .inl hopen) ⟨⟨hstream, hwhole, rfl⟩, hfilled, Nat.le_of_lt hroom⟩ nofun
      case isFalse hempty =>
        refine hver.go (.inl rfl) (fun _ => .inl hopen) ⟨⟨hstream, hwhole, rfl⟩, ?_⟩ nofun
        have hlength := hfilled.length
        rw [Nat.eq_zero_of_not_pos hempty] at hlength
        exact Nat.le_of_eq hlength

theorem handleActivate_verify (hver : VerifyInvariant cfg h s) (hidle : s.handler = .idle) :
    VerifyInvariant cfg h s.handleActivate := by
  unfold RcvOta.handleActivate
  split
  · exact hver.answer hidle (.inr (.inl rfl))
  case isFalse hready =>
    have hcode : s.errorCode = some .verifyOk := by
      by_contra hne
      exact hready (.inr hne)
    exact hver.go (.inl rfl) (fun hnew => hnew.elim nofun nofun) (hver.stage.code hcode) nofun

/-- A report keeps the invariant. -/
theorem processHid_verify (hver : VerifyInvariant cfg h s) (hidle : s.handler = .idle) (hcreated : s.writerCreated = true)
    (answers : BeginAnswers) (data : List (BitVec 8)) : VerifyInvariant cfg h (s.processHid cfg answers data) := by
  have hstop : ∀ k, VerifyInvariant cfg h (s.stopWriter k) := by
    intro k
    unfold RcvOta.stopWriter
    rw [if_pos hcreated]
    exact hver.answer hidle (.inr (.inr ⟨k, rfl⟩))
  have hstatus : VerifyInvariant cfg h { s with handler := .status } := hver.answer hidle (.inr (.inl rfl))
  unfold RcvOta.processHid
  split
  · exact hver
  split
  · exact hver
  · split
    · exact hstatus
    · unfold RcvOta.handleBegin
      split
      · exact hver
      · split
        · exact hstatus
        · exact hstop _
  · exact hstop _
  · split
    · exact hstatus
    · exact handleData_verify hver hidle _
  · split
    · exact hstatus
    · exact handleVerify_verify hver hidle
  · split
    · exact hstatus
    · exact handleActivate_verify hver hidle
  · split
    · exact hstatus
    · exact hver

/-- A packet is accepted. -/
theorem VerifyInvariant.accept (hver : VerifyInvariant cfg h s) {seq : BitVec 16} {payload : List (BitVec 8)} {copied : ℕ}
    (hplace : s.handler = .filling seq payload copied) (hend : ¬ copied < payload.length) {p : Handler}
    (hp : p = .status ∨ p = .idle) : VerifyInvariant cfg (h.follow (.accepted seq payload)) { s with
      bytesWritten := s.bytesWritten + payload.length
      nextExpectedSeq := seq + 1
      handler := p } := by
  have hknown := hver.place
  rw [hplace] at hknown
  obtain ⟨hreceiving, hfilled, hroom⟩ := hknown
  have hstoring := hver.early (.inr (by rw [hplace]; rfl))
  have hstream : s.stream = h.bytes ++ payload := by
    rw [hreceiving.stream, List.take_of_length_le (Nat.le_of_not_lt hend)]
  have hseq : seq = s.nextExpectedSeq := BitVec.eq_of_toNat_eq (hreceiving.seq.trans hver.counted.seq.symm)
  have hcalm : PlaceOk (h.follow (.accepted seq payload)) { s with
      bytesWritten := s.bytesWritten + payload.length
      nextExpectedSeq := seq + 1
      handler := p } p := by
    rcases hp with rfl | rfl <;> trivial
  refine ⟨?_, hver.bounded, hver.pages, hver.staged.congr rfl rfl rfl rfl,
    .storing ⟨hstoring.writer, hstoring.queue, hstoring.code, rfl⟩,
    fun _ => ⟨hstoring.writer, hstoring.queue, hstoring.code, rfl⟩, hcalm, fun _ _ => ⟨hstream, hfilled, hroom⟩⟩
  subst hseq
  exact hver.counted.accept hreceiving.more hreceiving.length _

/-- Bytes of a packet are copied. -/
theorem VerifyInvariant.copy (hown : OwnInvariant h s) (hver : VerifyInvariant cfg h s) {seq : BitVec 16}
    {payload : List (BitVec 8)} {copied : ℕ} (hplace : s.handler = .copying seq payload copied)
    (hstep : s.handlerStep cfg ok = some (s', es)) : VerifyInvariant cfg h s' ∧ es = [] := by
  have hknown := hver.place
  rw [hplace] at hknown
  obtain ⟨hreceiving, hfilled, hroom⟩ := hknown
  have hstoring := hver.early (.inr (by rw [hplace]; rfl))
  have hfresh := (hown.owned s.nextWriteSlot ⟨rfl, .inr ⟨seq, payload, copied, hplace⟩⟩).1
  have hpages : flashPageSize * h.pages ≤ s.stream.length := Nat.le.intro hfilled.length.symm
  have hchunk : ((payload.drop copied).take (s.chunk payload copied)).length = s.chunk payload copied := by
    rw [List.length_take, List.length_drop]
    exact Nat.min_eq_left (Nat.min_le_right _ _)
  have hmore : s.chunk payload copied ≤ payload.length - copied := Nat.min_le_right _ _
  have hspace : s.chunk payload copied ≤ flashPageSize - s.pageBufOffset := Nat.min_le_left _ _
  simp only [RcvOta.handlerStep, hplace] at hstep
  generalize hbytes : (payload.drop copied).take (s.chunk payload copied) = bytes at hstep hchunk
  rw [← hchunk] at hstep hmore hspace
  cases hstep
  have hreceiving' : Receiving h (s.stream ++ bytes) seq payload (copied + bytes.length) := by
    refine ⟨?_, ?_, hreceiving.seq, hreceiving.more, hreceiving.length⟩
    · rw [hreceiving.stream, List.append_assoc, List.take_add, hchunk, hbytes]
    · have hcopied := hreceiving.copied
      omega
  have hfilled' : Buffered h.pages (s.pageBufOffset + bytes.length)
      (update s.pageWriteReqs s.nextWriteSlot { s.pageWriteReqs s.nextWriteSlot with
        data := writeBytes (s.pageWriteReqs s.nextWriteSlot).data s.pageBufOffset bytes } s.nextWriteSlot).data
      (s.stream ++ bytes) := by
    rw [update_self]
    exact hfilled.copy
  have hoffset : s.pageBufOffset + bytes.length ≤ flashPageSize := by omega
  refine ⟨⟨hver.counted, ?_, hver.pages.grow (fun slot hslot => ?_) hpages, hver.staged.grow ?_, .storing hstoring,
    fun _ => hstoring, ?_, ?_⟩, rfl⟩
  · have hlength := hver.counted.length_le hreceiving.more
    have htotal : (s.stream ++ bytes).length = h.bytes.length + min (copied + bytes.length) payload.length := by
      rw [hreceiving'.stream, List.length_append, List.length_take]
    rw [← hreceiving.length] at hlength
    show (s.stream ++ bytes).length ≤ h.size
    omega
  · refine update_of_ne (fun heq => ?_) _ _
    rw [heq] at hslot
    exact hfresh hslot
  · -- a page in the flash was submitted
    refine Nat.le_trans (Nat.mul_le_mul_left _ ?_) hpages
    refine Nat.add_le_add_left ?_ _
    cases hwriter : s.writer with
    | give slot =>
      have hpipeline := hown.pipeline (by rw [hwriter]; rfl)
      rw [hwriter] at hpipeline
      rw [← hpipeline]
      exact Nat.succ_le_succ (Nat.zero_le _)
    | none | exited | loop | get | got | erase | program | setError | verify | reading | verifyFail | verifyFailCode
    | verifyOk | status | statusSend | activate | activateRun | activateFail | activateFailCode | completed | gone =>
      exact Nat.zero_le _
  · show PlaceOk h _ (if flashPageSize ≤ s.pageBufOffset + bytes.length then .flushCheck _ else .filling _ _ _)
    split
    case isTrue hfull => exact ⟨hreceiving', hfilled', Nat.le_antisymm hoffset hfull⟩
    case isFalse hroom' => exact ⟨hreceiving', hfilled', Nat.lt_of_not_le hroom'⟩
  · intro _ hcalm
    change Handler.calm (if flashPageSize ≤ s.pageBufOffset + bytes.length then .flushCheck _ else .filling _ _ _) = true
      at hcalm
    split at hcalm <;> cases hcalm

/-- The rest of the page is filled. -/
theorem VerifyInvariant.fill (hown : OwnInvariant h s) (hver : VerifyInvariant cfg h s) {k : Flush}
    (hplace : s.handler = .flushFill k) (hstep : s.handlerStep cfg ok = some (s', es)) :
    VerifyInvariant cfg h s' ∧ es = [] := by
  have hknown := hver.place
  have hpage := hown.page
  rw [hplace] at hknown hpage
  have hstoring := hver.early (.inr (by rw [hplace]; rfl))
  have hfresh := (hown.owned s.nextWriteSlot ⟨rfl, .inl hpage⟩).1
  simp only [RcvOta.handlerStep, hplace] at hstep
  cases hstep
  have hkeep : ∀ {req : PageWriteReq}, (∀ j < s.pageBufOffset, req.data j = (s.pageWriteReqs s.nextWriteSlot).data j) →
      Filled h s → Buffered h.pages s.pageBufOffset
        (update s.pageWriteReqs s.nextWriteSlot req s.nextWriteSlot).data s.stream := by
    intro req hdata hfilled
    rw [update_self]
    exact hfilled.congr hdata
  refine ⟨⟨hver.counted, hver.bounded, hver.pages.congr fun slot hslot => ?_, hver.staged, hver.stage, fun _ => hstoring,
    ⟨?_, ?_⟩, by rintro _ ⟨⟩⟩, rfl⟩
  · refine update_of_ne (fun heq => ?_) _ _
    rw [heq] at hslot
    exact hfresh hslot
  · have hdata : ∀ j < s.pageBufOffset, (if s.pageBufOffset ≤ j ∧ j < flashPageSize then (0xFF : BitVec 8) else
        (s.pageWriteReqs s.nextWriteSlot).data j) = (s.pageWriteReqs s.nextWriteSlot).data j :=
      fun j hj => if_neg (by omega)
    cases k with
    | data seq payload copied => exact ⟨hknown.1, hkeep hdata hknown.2.1, hknown.2.2⟩
    | verify =>
      exact ⟨⟨hknown.1.stream, hknown.1.whole, hknown.1.closed⟩, hkeep hdata hknown.2.1, hknown.2.2⟩
  · exact congrArg PageWriteReq.len (update_self s.nextWriteSlot _ s.pageWriteReqs)

/-- A page is submitted. -/
theorem VerifyInvariant.submit (hver : VerifyInvariant cfg h s) {k : Flush} (hplace : s.handler = .flushPut k) :
    VerifyInvariant cfg (h.follow (.submitted s.nextWriteSlot)) { s with
      nextWriteSlot := !s.nextWriteSlot
      pageBufFlashAddr := s.pageBufFlashAddr + flashPageSize
      pageBufOffset := 0
      handler := RcvOta.afterFlush k
      pageWriteMsgq := s.pageWriteMsgq ++ [WriterCmd.page s.nextWriteSlot] } := by
  have hknown := hver.place
  rw [hplace] at hknown
  obtain ⟨hflush, hlen⟩ := hknown
  have hold := hver.early (.inr (by rw [hplace]; rfl))
  have hput : Storing h s.writer (s.pageWriteMsgq ++ [WriterCmd.page s.nextWriteSlot]) s.errorCode := hold.put rfl
  have hstoring : Storing (h.follow (.submitted s.nextWriteSlot)) s.writer
      (s.pageWriteMsgq ++ [WriterCmd.page s.nextWriteSlot])
      s.errorCode := ⟨hput.writer, hput.queue, hput.code, hput.verified⟩
  have hpages : (h.follow (.submitted s.nextWriteSlot)).pages = h.pages + 1 := by
    show h.released + (h.outstanding ++ [_]).length = h.released + h.outstanding.length + 1
    rw [List.length_append, List.length_singleton, Nat.add_assoc]
  have hle : s.pageBufOffset ≤ flashPageSize ∧ Filled h s := by
    cases k with
    | data => exact ⟨Nat.le_of_eq hflush.2.2, hflush.2.1⟩
    | verify => exact ⟨hflush.2.2, hflush.2.1⟩
  refine ⟨hver.counted.congr rfl rfl rfl rfl, hver.bounded, hver.pages.submit hle.2 hlen hle.1,
    hver.staged.congr rfl rfl rfl rfl, .storing hstoring, fun _ => hstoring, ?_, ?_⟩
  · cases k with
    | data seq payload copied =>
      obtain ⟨hreceiving, hfilled, hfull⟩ := hflush
      refine ⟨⟨hreceiving.stream, hreceiving.copied, hreceiving.seq, hreceiving.more, hreceiving.length⟩, ?_,
        (show 0 < flashPageSize by decide)⟩
      show Buffered (h.follow (.submitted s.nextWriteSlot)).pages 0 _ s.stream
      rw [hpages]
      have hfilled : Buffered h.pages s.pageBufOffset _ s.stream := hfilled
      rw [hfull] at hfilled
      exact hfilled.next
    | verify =>
      obtain ⟨hcomplete, hfilled, -⟩ := hflush
      refine ⟨⟨hcomplete.stream, hcomplete.whole, hcomplete.closed⟩, ?_⟩
      show s.stream.length ≤ flashPageSize * (h.follow (.submitted s.nextWriteSlot)).pages
      rw [hpages, hfilled.length, Nat.mul_succ]
      exact Nat.add_le_add_left hle.1 _
  · cases k <;> nofun

/-- The check of the image is queued. -/
theorem VerifyInvariant.queueVerify (hver : VerifyInvariant cfg h s) (hplace : s.handler = .verifyPut) :
    VerifyInvariant cfg h { s with
      handler := .idle
      pageWriteMsgq := s.pageWriteMsgq ++ [WriterCmd.verify] } := by
  have hknown := hver.place
  rw [hplace] at hknown
  obtain ⟨⟨hstream, hwhole, hclosed⟩, hpages⟩ := hknown
  have hstoring := hver.early (.inr (by rw [hplace]; rfl))
  refine ⟨hver.counted, hver.bounded, hver.pages, hver.staged, .checking (hstoring.verify hstream hwhole hpages),
    fun hearly => ?_, trivial, fun hopen => absurd (hclosed.symm.trans hopen) (by decide)⟩
  exact hearly.elim (fun hopen => absurd (hclosed.symm.trans hopen) (by decide)) nofun

/-- The activation is queued. -/
theorem VerifyInvariant.queueActivate (hver : VerifyInvariant cfg h s) (hplace : s.handler = .activatePut) :
    VerifyInvariant cfg h { s with
      handler := .idle
      pageWriteMsgq := s.pageWriteMsgq ++ [WriterCmd.activate] } := by
  have hverified : h.verified = true := by
    have hknown := hver.place
    rw [hplace] at hknown
    exact hknown
  have hclosed : s.state.opened = true → False := fun hopen =>
    absurd (hverified.symm.trans (hver.early (.inl hopen)).verified) (by decide)
  have hstage := (hver.stage.sound hverified).put hverified
  exact ⟨hver.counted, hver.bounded, hver.pages, hver.staged, .settled hstage,
    fun hearly => (hearly.elim hclosed nofun).elim, trivial, fun hopen => (hclosed hopen).elim⟩

/-- The writer is woken for its end. -/
theorem VerifyInvariant.wake (hver : VerifyInvariant cfg h s) {k : Stop} (hplace : s.handler = .stopWake k) :
    VerifyInvariant cfg h { s with
      pageWriteMsgq := if s.pageWriteMsgq.length < writerQueueSize then s.pageWriteMsgq ++ [WriterCmd.shutdown]
        else s.pageWriteMsgq
      handler := .stopJoin k } := by
  have hready : s.state.opened = true → Ready h s := fun hopen => hver.ready hopen (by rw [hplace]; rfl)
  split
  · refine ⟨hver.counted, hver.bounded, hver.pages, hver.staged, hver.stage.wake, fun hearly => ?_, trivial,
      fun hopen _ => ?_⟩
    · exact (hver.early (hearly.imp_right nofun)).put rfl
    · obtain ⟨hstream, hfilled, hroom⟩ := hready hopen
      exact ⟨hstream, hfilled, hroom⟩
  · refine ⟨hver.counted, hver.bounded, hver.pages, hver.staged, hver.stage, fun hearly => ?_, trivial, fun hopen _ => ?_⟩
    · exact hver.early (hearly.imp_right nofun)
    · obtain ⟨hstream, hfilled, hroom⟩ := hready hopen
      exact ⟨hstream, hfilled, hroom⟩

/-- With a writer, the HID command thread keeps the invariant, unless it joins the writer. -/
theorem handlerStep_verify (hown : OwnInvariant h s) (hver : VerifyInvariant cfg h s)
    (hstep : s.handlerStep cfg ok = some (s', es)) :
    (s'.writer ≠ .none → VerifyInvariant cfg (es.foldl UpdateHistory.follow h) s') ∧ ∀ e ∈ es, h.Answers e := by
  have hknown := hver.place
  have hfail : ∀ {code : OtaStatus}, code ≠ .verifyOk → VerifyInvariant cfg h { s with handler := .fail code } :=
    fun hcode => hver.go (.inl rfl) (fun hnew => .inl (hnew.resolve_right (by rintro ⟨⟩))) hcode (by rintro _ ⟨⟩)
  cases hplace : s.handler with
  | idle =>
    simp only [RcvOta.handlerStep, hplace] at hstep
    cases hstep
  | status =>
    simp only [RcvOta.handlerStep, hplace] at hstep
    cases hstep
    refine ⟨fun _ => hver.go (.inl rfl) (fun hnew => .inl (hnew.resolve_right (by rintro ⟨⟩))) ?_ fun hopen _ => ?_,
      by simp⟩
    · exact fun hcode => hver.stage.code (RcvOta.errorCode_of_statusCode hcode)
    · exact hver.ready hopen (by rw [hplace]; rfl)
  | statusSend code =>
    rw [hplace] at hknown
    simp only [RcvOta.handlerStep, hplace] at hstep
    cases hstep
    refine ⟨fun _ => hver.go (.inl rfl) (fun hnew => .inl (hnew.resolve_right (by rintro ⟨⟩))) trivial
      fun hopen _ => ?_, fun e he => ?_⟩
    · exact hver.ready hopen (by rw [hplace]; rfl)
    · rw [List.mem_singleton.mp he]
      exact fun hcode => hknown (RcvOta.code_of_sentCode hcode)
  | fail code =>
    rw [hplace] at hknown
    simp only [RcvOta.handlerStep, hplace] at hstep
    cases hstep
    exact ⟨fun _ => hver.go (.inl rfl) (fun hnew => (hnew.elim (by rintro ⟨⟩) (by rintro ⟨⟩))) ⟨hknown, rfl⟩
      (by rintro ⟨⟩), by simp⟩
  | failCode code =>
    rw [hplace] at hknown
    simp only [RcvOta.handlerStep, hplace] at hstep
    cases hstep
    refine ⟨fun _ => hver.go (.inr ⟨code, rfl, hknown.1, hknown.2, rfl⟩)
      (fun hnew => .inl (hnew.resolve_right (by rintro ⟨⟩))) trivial fun hopen => ?_, by simp⟩
    exact absurd (hknown.2.symm.trans hopen) (by decide)
  | filling seq payload copied =>
    rw [hplace] at hknown
    simp only [RcvOta.handlerStep, hplace] at hstep
    split at hstep
    · split at hstep
      · split at hstep
        · split at hstep
          · cases hstep
            refine ⟨fun _ => ⟨hver.counted, hver.bounded, hver.pages, hver.staged, hver.stage, fun _ => ?_, hknown,
              (by rintro _ ⟨⟩)⟩, by simp⟩
            exact hver.early (.inr (by rw [hplace]; rfl))
          · cases hstep
        · split at hstep
          · cases hstep
          · cases hstep
            exact ⟨fun _ => hfail (by decide), by simp⟩
      · cases hstep
        refine ⟨fun _ => hver.go (.inl rfl) (fun _ => .inr (by rw [hplace]; rfl)) hknown (by rintro _ ⟨⟩), by simp⟩
    case isFalse hend =>
      cases hstep
      refine ⟨fun _ => hver.accept hplace hend ?_, fun e he => ?_⟩
      · split
        · exact .inl rfl
        · exact .inr rfl
      · rw [List.mem_singleton.mp he]
        exact ⟨hknown.1.seq, hknown.1.more, hknown.1.length⟩
  | copying seq payload copied =>
    obtain ⟨hnew, rfl⟩ := hver.copy hown hplace hstep
    exact ⟨fun _ => hnew, by simp⟩
  | flushCheck k =>
    rw [hplace] at hknown
    simp only [RcvOta.handlerStep, hplace] at hstep
    cases hstep
    refine ⟨fun _ => ?_, by simp⟩
    split
    · exact hfail (by decide)
    · exact hver.go (.inl rfl) (fun _ => .inr (by rw [hplace]; rfl)) hknown (by rintro _ ⟨⟩)
  | flushFill k =>
    obtain ⟨hnew, rfl⟩ := hver.fill hown hplace hstep
    exact ⟨fun _ => hnew, by simp⟩
  | flushPut k =>
    simp only [RcvOta.handlerStep, hplace, RcvOta.put] at hstep
    split at hstep
    · split at hstep
      · cases hstep
        exact ⟨fun _ => hver.submit hplace, by simp [UpdateHistory.Answers]⟩
      · cases hstep
    · split at hstep
      · cases hstep
      · cases hstep
        exact ⟨fun _ => hfail (by decide), by simp⟩
  | verifyPut =>
    simp only [RcvOta.handlerStep, hplace, RcvOta.put] at hstep
    split at hstep
    · split at hstep
      · cases hstep
        exact ⟨fun _ => hver.queueVerify hplace, by simp⟩
      · cases hstep
    · split at hstep
      · cases hstep
      · cases hstep
        exact ⟨fun _ => hfail (by decide), by simp⟩
  | activatePut =>
    simp only [RcvOta.handlerStep, hplace, RcvOta.put] at hstep
    split at hstep
    · split at hstep
      · cases hstep
        exact ⟨fun _ => hver.queueActivate hplace, by simp⟩
      · cases hstep
    · split at hstep
      · cases hstep
      · cases hstep
        exact ⟨fun _ => hfail (by decide), by simp⟩
  | stopFlag k =>
    simp only [RcvOta.handlerStep, hplace] at hstep
    cases hstep
    refine ⟨fun _ => ⟨hver.counted, hver.bounded, hver.pages, hver.staged, hver.stage, fun hearly => ?_, trivial,
      fun hopen _ => ?_⟩, by simp⟩
    · exact hver.early (hearly.imp_right (by rintro ⟨⟩))
    · obtain ⟨hstream, hfilled, hroom⟩ := hver.ready hopen (by rw [hplace]; rfl)
      exact ⟨hstream, hfilled, hroom⟩
  | stopWake k =>
    simp only [RcvOta.handlerStep, hplace] at hstep
    cases hstep
    exact ⟨fun _ => hver.wake hplace, by simp⟩
  | stopJoin k =>
    simp only [RcvOta.handlerStep, hplace] at hstep
    split at hstep
    · cases hstep
      exact ⟨fun hmanned => absurd rfl hmanned, by simp⟩
    · cases hstep
    · cases hstep
    · cases hstep
    · cases hstep
      refine ⟨fun _ => hver.go (.inl rfl) (fun hnew => .inl (hnew.resolve_right (by rintro ⟨⟩))) trivial
        fun hopen _ => ?_, by simp⟩
      exact hver.ready hopen (by rw [hplace]; rfl)
  | stopped k =>
    have hpage := hown.page
    rw [hplace] at hpage
    exact hpage.elim

/-! ## Sessions -/

theorem beginCheck_error {answers : BeginAnswers} {r : BeginRequest} {code : OtaStatus}
    (hcheck : beginCheck cfg answers r = .error code) : code ≠ .verifyOk := by
  rintro rfl
  unfold beginCheck at hcheck
  repeat' split at hcheck
  all_goals cases hcheck

/-- An image that is taken in fits. -/
theorem beginCheck_ok {answers : BeginAnswers} {r : BeginRequest} {base : ℕ}
    (hcheck : beginCheck cfg answers r = .ok base) : r.imageSize ≤ cfg.maxImageSize := by
  unfold beginCheck at hcheck
  split at hcheck
  · cases hcheck
  split at hcheck
  · cases hcheck
  split at hcheck
  · cases hcheck
  split at hcheck
  · cases hcheck
  case isFalse hsize => exact Nat.le_of_not_lt fun hlt => hsize (.inr hlt)

theorem FlashConfig.maxImageSize_le (cfg : FlashConfig) :
    cfg.maxImageSize ≤ 1048576 ∧ (cfg.useMcuboot = true → cfg.maxImageSize ≤ cfg.secondarySize) := by
  have hend := cfg.flashEnd_le
  unfold FlashConfig.maxImageSize
  split
  · exact ⟨cfg.capacity_le, fun _ => cfg.capacity_le_secondary⟩
  case isFalse hboot => exact ⟨by omega, fun htrue => absurd htrue hboot⟩

/-- A session begins with nothing. -/
theorem startSession_verify {r : BeginRequest} (base : ℕ) (hsize : r.imageSize ≤ cfg.maxImageSize) :
    VerifyInvariant cfg (h.follow (.began r.imageSize r.imageCrc32 base)) (s.startSession cfg r base) where
  counted := by
    obtain ⟨hsmall, hfits⟩ := cfg.maxImageSize_le
    exact ⟨rfl, rfl, hsize.trans hsmall, fun hboot => hsize.trans (hfits hboot), rfl, rfl, (Nat.zero_min _).symm⟩
  bounded := Nat.zero_le _
  pages j slot hj := by cases hj
  staged := by
    refine ⟨nofun, fun _ _ x _ hx => (by cases hx), fun _ _ hboot x _ hx => ?_, fun _ slot hplace => (by cases hplace)⟩
    show (if cfg.useMcuboot then fun a => if base ≤ a ∧ a < base + cfg.secondarySize then (0xFF : BitVec 8) else s.flash a
      else s.flash) (base + x) = 0xFF
    rw [if_pos hboot, if_pos ⟨Nat.le_add_right _ _, Nat.add_lt_add_left hx _⟩]
  stage := .storing ⟨rfl, nofun, nofun, rfl⟩
  early _ := ⟨rfl, nofun, nofun, rfl⟩
  place := trivial
  ready _ _ := ⟨rfl, ⟨rfl, nofun⟩, (show 0 < flashPageSize by decide)⟩

/-- Without a writer no good answer is left. -/
structure Unverified (s : RcvOta) : Prop where
  code : (∀ k, s.handler ≠ .stopped k) → s.errorCode ≠ some .verifyOk
  sent : ∀ code, s.handler = .statusSend code → code ≠ .verifyOk

/-- What holds after every step. -/
structure SessionInvariant (cfg : FlashConfig) (h : UpdateHistory) (s : RcvOta) : Prop where
  unmanned : s.writer = .none → Unverified s
  session : s.writer ≠ .none → VerifyInvariant cfg h s

/-- The event is neither a good answer nor about an image. -/
def UpdateEvent.plain : UpdateEvent → Prop
  | .began _ _ _ | .aborted => True
  | .status code => code ≠ .verifyOk
  | _ => False

theorem UpdateEvent.plain.answers {e : UpdateEvent} (he : e.plain) : h.Answers e := by
  cases e with
  | began | aborted => trivial
  | status code => exact fun hgood => absurd hgood he
  | accepted | submitted | attempted | pageFailed | released | verified | verifyFailed | activating => exact he.elim

theorem handlerStep_unverified (hun : Unmanned s) (hnone : s.writer = .none) (hquiet : Unverified s)
    (hstep : s.handlerStep cfg ok = some (s', es)) :
    SessionInvariant cfg (es.foldl UpdateHistory.follow h) s' ∧ ∀ e ∈ es, e.plain := by
  have hstay : ∀ {h' : UpdateHistory} {t : RcvOta}, t.writer = s.writer → Unverified t → SessionInvariant cfg h' t :=
    fun hwriter ht => ⟨fun _ => ht, fun hne => absurd (hwriter.trans hnone) hne⟩
  have hplaces := hun.handler
  cases hplace : s.handler with
  | idle =>
    simp only [RcvOta.handlerStep, hplace] at hstep
    cases hstep
  | status =>
    have hcode := hquiet.code (by rw [hplace]; rintro _ ⟨⟩)
    simp only [RcvOta.handlerStep, hplace] at hstep
    cases hstep
    refine ⟨hstay rfl ⟨fun _ => hcode, fun code heq hgood => hcode ?_⟩, by simp⟩
    cases heq
    exact RcvOta.errorCode_of_statusCode hgood
  | statusSend code =>
    have hcode := hquiet.code (by rw [hplace]; rintro _ ⟨⟩)
    simp only [RcvOta.handlerStep, hplace] at hstep
    cases hstep
    refine ⟨hstay rfl ⟨fun _ => hcode, by rintro _ ⟨⟩⟩, fun e he => ?_⟩
    rw [List.mem_singleton.mp he]
    exact fun hgood => hquiet.sent code hplace (RcvOta.code_of_sentCode hgood)
  | stopped k =>
    simp only [RcvOta.handlerStep, hplace] at hstep
    cases k with
    | abort =>
      cases hstep
      exact ⟨hstay rfl ⟨by rintro _ ⟨⟩, by rintro _ ⟨⟩⟩, by simp [UpdateEvent.plain]⟩
    | start r answers =>
      simp only [RcvOta.afterStop] at hstep
      split at hstep
      case h_1 code hcheck =>
        cases hstep
        have hne : some code ≠ some OtaStatus.verifyOk := fun heq => beginCheck_error hcheck (Option.some.inj heq)
        exact ⟨hstay rfl ⟨fun _ => hne, by rintro _ ⟨⟩⟩, by simp⟩
      case h_2 base hcheck =>
        split at hstep
        · cases hstep
          exact ⟨hstay rfl ⟨by rintro _ ⟨⟩, by rintro _ ⟨⟩⟩, by simp⟩
        · cases hstep
          refine ⟨⟨by rintro ⟨⟩, fun _ => ?_⟩, by simp [UpdateEvent.plain]⟩
          exact startSession_verify (h := h) base (beginCheck_ok hcheck)
  | fail | failCode | filling | copying | flushCheck | flushFill | flushPut | verifyPut | activatePut | stopFlag | stopWake
  | stopJoin =>
    rw [hplace] at hplaces
    cases hplaces

/-- Every step keeps the invariant, and answers truly. -/
theorem updateStep_verify {op : UpdateOp} (hown : UpdateInvariant h s) (hver : SessionInvariant cfg h s)
    (hstep : updateStep cfg s op = some (s', es)) :
    SessionInvariant cfg (es.foldl UpdateHistory.follow h) s' ∧ ∀ e ∈ es, h.Answers e := by
  cases op with
  | hid data answers =>
    simp only [updateStep] at hstep
    split at hstep
    case h_2 => cases hstep
    case h_1 hidle =>
      cases hstep
      refine ⟨⟨fun hnone => ?_, fun hmanned => ?_⟩, by simp⟩
      · have hwriter : s.writer = .none := by
          obtain ⟨st, p, heq, -⟩ := processHid_spec cfg answers data s hidle
          rw [heq] at hnone
          exact hnone
        obtain ⟨p, heq, -, hsent⟩ := processHid_unmanned cfg answers data (hown.unmanned hwriter) hidle
        have hcode := (hver.unmanned hwriter).code (by rw [hidle]; rintro _ ⟨⟩)
        rw [heq]
        exact ⟨fun _ => hcode, fun code hplace => absurd hplace (hsent code)⟩
      · have hwriter : s.writer ≠ .none := by
          obtain ⟨st, p, heq, -⟩ := processHid_spec cfg answers data s hidle
          rw [heq] at hmanned
          exact hmanned
        exact processHid_verify (hver.session hwriter) hidle (hown.own hwriter).created answers data
  | handler ok =>
    by_cases hnone : s.writer = .none
    · obtain ⟨hnew, hplain⟩ := handlerStep_unverified (hown.unmanned hnone) hnone (hver.unmanned hnone) hstep
      exact ⟨hnew, fun e he => (hplain e he).answers⟩
    · obtain ⟨hnew, hanswers⟩ := handlerStep_verify (hown.own hnone) (hver.session hnone) hstep
      refine ⟨⟨fun hjoined => ?_, hnew⟩, hanswers⟩
      rcases handlerStep_writer hstep with hsame | ⟨-, -, k, hplace⟩ | ⟨size, crc, base, hbegan⟩
      · exact absurd (hsame.symm.trans hjoined) hnone
      · exact ⟨fun hnot => absurd hplace (hnot k), fun code hsent => by cases hplace.symm.trans hsent⟩
      · have hstep : updateStep cfg s (.handler ok) = some (s', es) := hstep
        have hcreated := (updateStep_began hstep hown hbegan).2.1
        cases hcreated.symm.trans hjoined
  | writer ok garbage =>
    have hstep : s.writerStep cfg ok garbage = some (s', es) := hstep
    have hmanned : s.writer ≠ .none := by
      intro hnone
      simp only [RcvOta.writerStep, hnone] at hstep
      cases hstep
    obtain ⟨hnew, hanswers⟩ := writerStep_verify (hown.own hmanned) (hver.session hmanned) hstep
    exact ⟨⟨fun hnone => absurd hnone (writerStep_own (hown.own hmanned) hstep).1, fun _ => hnew⟩, hanswers⟩

theorem session_invariant {flash : ℕ → BitVec 8} {trace : List UpdateEvent}
    (hrun : (selfUpdateSystem cfg flash).Run trace s) :
    SessionInvariant cfg (UpdateHistory.of trace) s ∧
      EachAfter (fun earlier => (UpdateHistory.of earlier).Answers) trace := by
  induction hrun with
  | start => exact ⟨⟨fun _ => ⟨fun _ => nofun, nofun⟩, fun hmanned => absurd rfl hmanned⟩, eachAfter_nil⟩
  | snoc hrun _ htaken ih =>
    have hown := (update_invariant hrun).1
    obtain ⟨hnew, hanswers⟩ := updateStep_verify hown ih.1 htaken
    rw [UpdateHistory.of_append]
    refine ⟨hnew, ?_⟩
    obtain rfl | ⟨e, rfl, -⟩ := (updateStep_own hown htaken).2
    · rw [List.append_nil]
      exact ih.2
    · exact eachAfter_snoc.mpr ⟨ih.2, hanswers e (List.mem_singleton_self e)⟩

/-- The packets of an image are accepted in order, each with its bytes of the image; VERIFY_OK is answered and the
activation entered only when the session's check went well and nothing was begun, accepted or given up since; and the
staging region holds then exactly what was accepted, with the announced size and checksum, and no page failed. -/
theorem verification_sound {flash : ℕ → BitVec 8} {trace : List UpdateEvent}
    (hrun : (selfUpdateSystem cfg flash).Run trace s) :
    EachAfter (fun earlier => (UpdateHistory.of earlier).Answers) trace ∧
    ∀ op s' es, updateStep cfg s op = some (s', es) → .status .verifyOk ∈ es ∨ .activating ∈ es →
      (UpdateHistory.of trace).verified = true ∧ Sound (UpdateHistory.of trace) s.flash := by
  obtain ⟨hver, hlaw⟩ := session_invariant hrun
  have hown := (update_invariant hrun).1
  refine ⟨hlaw, fun op s' es hstep hgood => ?_⟩
  have hanswers := (updateStep_verify hown hver hstep).2
  have hverified : (UpdateHistory.of trace).verified = true :=
    hgood.elim (fun hmem => hanswers _ hmem rfl) (fun hmem => hanswers _ hmem)
  refine ⟨hverified, ?_⟩
  by_cases hnone : s.writer = .none
  · -- without a writer there is no such answer
    cases op with
    | hid data answers =>
      simp only [updateStep] at hstep
      split at hstep
      · cases hstep
        simp at hgood
      · cases hstep
    | handler ok =>
      have hplain := (handlerStep_unverified (h := UpdateHistory.of trace) (hown.unmanned hnone) hnone
        (hver.unmanned hnone) hstep).2
      exact (hgood.elim (fun hmem => hplain _ hmem rfl) (fun hmem => hplain _ hmem)).elim
    | writer ok garbage =>
      simp only [updateStep, RcvOta.writerStep, hnone] at hstep
      cases hstep
  · exact ((hver.session hnone).stage.sound hverified).sound hverified

/-- The image of one byte, with its checksum, up to the answer to its VERIFY. -/
def verifiedByte : List UpdateOp :=
  let answers : BeginAnswers := ⟨false, true, true, true, fun _ => 0⟩
  [UpdateOp.hid ([0xF2, 0, 1, 0, 0, 0, 0x2E, 0x7A, 0x66, 0x4C, 0, 0, 1] ++ List.replicate 51 0) answers] ++
    List.replicate 3 (UpdateOp.handler true) ++
    [UpdateOp.hid [0xF3, 0, 0, 0, 7] answers, .handler true, .handler true, .handler false, .hid [0xF5, 0] answers] ++
    List.replicate 4 (UpdateOp.handler true) ++ List.replicate 14 (UpdateOp.writer true fun _ => 0)

theorem verification_sound_one : ∃ trace s, (selfUpdateSystem fourPages fun _ => 0xFF).Run trace s ∧
    (∃ s' es, updateStep fourPages s (.writer true fun _ => 0) = some (s', es) ∧ .status .verifyOk ∈ es) ∧
      (UpdateHistory.of trace).bytes = [7] ∧ (UpdateHistory.of trace).verified = true ∧
        Sound (UpdateHistory.of trace) s.flash := by
  obtain ⟨trace, s, hrun, htest⟩ := (selfUpdateSystem fourPages fun _ => 0xFF).exists_run_of_replay verifiedByte
    (fun trace s => decide ((UpdateHistory.of trace).bytes = [7] ∧ s.writerStopRequested = false) &&
      match s.writer with
      | .statusSend .verifyOk .loop => true
      | _ => false) (by decide +kernel)
  obtain ⟨hfacts, hplace⟩ := Bool.and_eq_true_iff.mp htest
  obtain ⟨hbytes, hstop⟩ := of_decide_eq_true hfacts
  have hwriter : s.writer = .statusSend .verifyOk .loop := by
    revert hplace
    split
    case h_1 heq => exact fun _ => heq
    case h_2 => nofun
  have hstep : updateStep fourPages s (.writer true fun _ => 0) =
      some ({ s with writer := .loop }, [.status .verifyOk]) := by
    simp [updateStep, RcvOta.writerStep, hwriter, RcvOta.afterStatus, RcvOta.sentCode, hstop]
  have hsound := (verification_sound hrun).2 _ _ _ hstep (.inl (List.mem_singleton_self _))
  exact ⟨trace, s, hrun, ⟨_, _, hstep, List.mem_singleton_self _⟩, hbytes, hsound⟩

end Producer

end SlimeReceiver.SelfUpdate
